import Scripting.Proofs.Conversion

/-!
Strings: what their functions give, counted in characters.

Parts, single characters, joins and strings of code points are given exactly if what is asked for exists,
and no function changes an object that there was, not even when it refuses. Main statement:
`string_functions`.
-/

namespace Scripting

/-- An exception is thrown, and what there was stays as it is. -/
def Outcome.Refuses {α : Type} (s : State) (outcome : Outcome α) : Prop :=
  ∃ e s', outcome = .thrown e s' ∧ s.Adds s'

/-- A new string with the text is given if the condition holds, else the request is refused. -/
def Outcome.GivesTextIff (s : State) (condition : Prop) (text : String) (outcome : Outcome Value) : Prop :=
  (condition → outcome.GivesText s text) ∧ (¬condition → outcome.Refuses s)

namespace Outcome.GivesTextIff

variable {s : State} {c c' : Prop} {text : String} {outcome : Outcome Value}

theorem of_true (hc : c) (h : outcome.GivesText s text) : outcome.GivesTextIff s c text :=
  ⟨fun _ => h, fun hnot => absurd hc hnot⟩

theorem of_false (hc : ¬c) (h : outcome.Refuses s) : outcome.GivesTextIff s c text :=
  ⟨fun hyes => absurd hyes hc, fun _ => h⟩

theorem congr (h : outcome.GivesTextIff s c text) (hc : c ↔ c') : outcome.GivesTextIff s c' text := by
  rwa [← hc]

end Outcome.GivesTextIff

/-- The numbers of characters: all code points but those of surrogates. -/
def IsScalarValue (n : Int) : Prop :=
  0 ≤ n ∧ n ≤ 0x10FFFF ∧ ¬(0xD800 ≤ n ∧ n ≤ 0xDFFF)

namespace Eval

open State

variable {s s' : State}

theorem refuses_fail {α : Type} (h : s.Adds s') (fault : Fault) :
    (fail fault s' : Outcome α).Refuses s :=
  ⟨_, _, rfl, h.trans (adds_newException ..)⟩

/-! Parts. -/

/-- The request for a part that begins at `start` and has a length or goes up to the end fits into a
text of `n` characters. -/
def PartFits (n : Nat) (start : Int64) (length : Option Int64) : Prop :=
  0 ≤ start.toInt ∧ start.toInt ≤ n ∧ ∀ k ∈ length, 0 ≤ k.toInt ∧ start.toInt + k.toInt ≤ n

/-- The characters from `start` on. -/
def partOf (chars : List Char) (start : Int64) : Option Int64 → List Char
  | none => chars.drop start.toInt.toNat
  | some k => (chars.drop start.toInt.toNat).take k.toInt.toNat

theorem int64_neg_iff {n : Int64} : n < 0 ↔ n.toInt < 0 :=
  Int64.lt_iff_toInt_lt

theorem substringOf_cases (chars : List Char) (start : Int64) (length : Option Int64) :
    (PartFits chars.length start length ∧
      substringOf chars start length = .ok (partOf chars start length)) ∨
    ¬PartFits chars.length start length ∧ ∃ fault, substringOf chars start length = .error fault := by
  unfold substringOf
  split
  next hstart =>
    exact .inr ⟨fun hfits => Int.not_lt.2 hfits.1 (int64_neg_iff.1 hstart), _, rfl⟩
  next hstart =>
  rw [int64_neg_iff, Int.not_lt] at hstart
  split
  next hlength =>
    obtain ⟨k, rfl, hk⟩ := Option.any_eq_true _ _ |>.1 hlength
    exact .inr ⟨fun hfits =>
      Int.not_lt.2 (hfits.2.2 k rfl).1 (int64_neg_iff.1 (of_decide_eq_true hk)), _, rfl⟩
  next hlength =>
  split
  next hend => exact .inr ⟨fun hfits => by have := hfits.2.1; omega, _, rfl⟩
  next hend =>
  cases length with
  | none => exact .inl ⟨⟨hstart, by omega, nofun⟩, rfl⟩
  | some k =>
    have hk : 0 ≤ k.toInt := by simpa [int64_neg_iff] using hlength
    dsimp only
    split
    next hsum => exact .inr ⟨fun hfits => by have := (hfits.2.2 k rfl).2; omega, _, rfl⟩
    next hsum =>
      refine .inl ⟨⟨hstart, by omega, ?_⟩, rfl⟩
      rintro _ ⟨⟩
      exact ⟨hk, by omega⟩

theorem givesTextIff_stringSubstring (o : ObjectId) {args : List Value} {start : Int64}
    {length : Option Int64} (hargs : 1 ≤ args.length ∧ args.length ≤ 2)
    (hstart : s.Counts (s.deref (argument args 0)) start)
    (hlength : optionalLength args s = .ok length s) :
    (stringSubstring o args s).GivesTextIff s (PartFits (s.object o).text.length start length)
      (String.ofList (partOf (s.object o).text.toList start length)) := by
  have hleast : expectAtLeast args 1 "substring" s = .ok () s := by
    rw [expectAtLeast, if_neg (by omega)]
    rfl
  have hmost : expectAtMost args 2 "substring" s = .ok () s := by
    rw [expectAtMost, if_neg (by omega)]
    rfl
  have hchars : charsOf o s = .ok (s.object o).text.toList s := rfl
  rw [stringSubstring, bind_of_ok hleast, bind_of_ok hmost, bind_of_ok (toInt_of_counts hstart),
    bind_of_ok hlength, bind_of_ok hchars, ← String.length_toList]
  obtain ⟨hfits, hpart⟩ | ⟨hnot, fault, hpart⟩ := substringOf_cases (s.object o).text.toList start length
  · rw [hpart]
    exact .of_true hfits (givesText_newString (.refl s) _)
  · rw [hpart]
    exact .of_false hnot (refuses_fail (.refl s) fault)

/-! Single characters. -/

theorem givesTextIff_operatorSubscript {o : ObjectId} {index : Value} {n : Int64}
    (ho : s.behavior? o = some .string) (hindex : s.Counts (s.deref index) n) :
    (operatorSubscript o index s).GivesTextIff s (0 ≤ n.toInt ∧ n.toInt < (s.object o).text.length)
      (String.ofList (((s.object o).text.toList.drop n.toInt.toNat).take 1)) := by
  have hbehavior : look (·.behavior? o) s = .ok (some .string) s := by rw [look, ho]
  have hchars : look (fun s => (s.object o).text.toList) s = .ok (s.object o).text.toList s := rfl
  rw [operatorSubscript, bind_of_ok hbehavior]
  dsimp only
  rw [bind_of_ok (toInt_of_counts hindex), bind_of_ok hchars, ← String.length_toList]
  generalize (s.object o).text.toList = chars
  by_cases hneg : n < 0
  · rw [if_pos hneg]
    exact .of_false (fun h => Int.not_lt.2 h.1 (int64_neg_iff.1 hneg)) (refuses_fail (.refl s) _)
  · rw [if_neg hneg]
    rw [int64_neg_iff, Int.not_lt] at hneg
    cases hchar : chars[n.toInt.toNat]? with
    | none =>
      rw [List.getElem?_eq_none_iff] at hchar
      exact .of_false (by omega) (refuses_fail (.refl s) _)
    | some c =>
      obtain ⟨hlt, hc⟩ := List.getElem?_eq_some_iff.1 hchar
      rw [List.drop_eq_getElem_cons hlt, List.take_succ_cons, List.take_zero, hc]
      exact .of_true ⟨hneg, by omega⟩ (givesText_newString (.refl s) _)

/-! Code points. -/

theorem character?_cases (n : Int64) :
    (IsScalarValue n.toInt ∧ ∃ c : Char, character? n = some c ∧ c.toNat = n.toInt) ∨
      ¬IsScalarValue n.toInt ∧ character? n = none := by
  unfold character? IsScalarValue
  by_cases hvalid : 0 ≤ n.toInt ∧ n.toInt.toNat.isValidChar
  · refine .inl ⟨?_, Char.ofNat n.toInt.toNat, if_pos hvalid, ?_⟩
    · obtain ⟨hpos, h | h⟩ := hvalid <;> omega
    · have hnat : (Char.ofNat n.toInt.toNat).toNat = n.toInt.toNat := by
        rw [Char.ofNat, dif_pos hvalid.2]
        rfl
      omega
  · refine .inr ⟨fun h => hvalid ⟨h.1, ?_⟩, if_neg hvalid⟩
    unfold Nat.isValidChar
    omega

theorem charactersOf_cases {args : List Value} {points : List Int64}
    (h : List.Forall₂ (fun a n => s.Counts (s.deref a) n) args points) :
    ((∀ n ∈ points, IsScalarValue n.toInt) ∧ ∃ chars, charactersOf args s = .ok chars s ∧
      chars.map (fun c => (c.toNat : Int)) = points.map Int64.toInt) ∨
    (¬∀ n ∈ points, IsScalarValue n.toInt) ∧ (charactersOf args s).Refuses s := by
  induction h with
  | nil => exact .inl ⟨nofun, [], rfl, rfl⟩
  | @cons a n args points ha hargs ih =>
    rw [charactersOf, bind_of_ok (toInt_of_counts ha), List.forall_mem_cons]
    obtain ⟨hscalar, c, hc, hpoint⟩ | ⟨hscalar, hc⟩ := character?_cases n
    · rw [hc]
      obtain ⟨hall, chars, hchars, hpoints⟩ | ⟨hnot, e, s', he, hadds⟩ := ih
      · refine .inl ⟨⟨hscalar, hall⟩, c :: chars, bind_of_ok hchars _, ?_⟩
        rw [List.map_cons, List.map_cons, hpoint, hpoints]
      · exact .inr ⟨fun h => hnot h.2, e, s', bind_of_thrown he _, hadds⟩
    · rw [hc]
      exact .inr ⟨fun h => hscalar h.1, refuses_fail (.refl s) _⟩

/-! The functions together. -/

theorem toInt_countOf (n : Nat) : (countOf n).toInt = min n (2 ^ 63 - 1) := by
  rw [countOf, Int64.toInt_ofNat_of_lt (by omega)]
  omega

section

variable (i : Interp) (o : ObjectId)

theorem givesTextIff_part {a b : Value} {start count : Int64} (ha : s.Counts (s.deref a) start)
    (hb : s.Counts (s.deref b) count) :
    (callBuiltin i .stringSubstring o [a, b] s).GivesTextIff s
      (0 ≤ start.toInt ∧ 0 ≤ count.toInt ∧ start.toInt + count.toInt ≤ (s.object o).text.length)
      (String.ofList (((s.object o).text.toList.drop start.toInt.toNat).take count.toInt.toNat)) := by
  have hlength : optionalLength [a, b] s = .ok (some count) s := bind_of_ok (toInt_of_counts hb) _
  refine (givesTextIff_stringSubstring o (by simp) ha hlength).congr ?_
  simp only [PartFits, Option.mem_some_iff, forall_eq']
  omega

theorem givesTextIff_rest {a : Value} {start : Int64} (ha : s.Counts (s.deref a) start) :
    (callBuiltin i .stringSubstring o [a] s).GivesTextIff s
      (0 ≤ start.toInt ∧ start.toInt ≤ (s.object o).text.length)
      (String.ofList ((s.object o).text.toList.drop start.toInt.toNat)) := by
  have hlength : optionalLength [a] s = .ok none s := rfl
  refine (givesTextIff_stringSubstring o (by simp) ha hlength).congr ?_
  simp [PartFits]

theorem givesText_split (ho : s.behavior? o = some .string)
    (hstring : (s.classInfo .string).behavior = .string) {n : Int64} (hn : 0 ≤ n.toInt)
    (hle : n.toInt ≤ (s.object o).text.length) :
    ((do
      let front ← callBuiltin i .stringSubstring o [.int 0, .int n]
      let back ← callBuiltin i .stringSubstring o [.int n]
      callBuiltin i .stringConcat (← toObject front) [back] : Eval Value) s).GivesText s
        (s.object o).text := by
  have hsize := lt_size_of_behavior? ho
  obtain ⟨p, s₁, hfront, hadds₁, -, hp⟩ := (givesTextIff_part i o (counts_int s 0) (counts_int s n)).1
    ⟨Int.le_refl 0, hn, by simpa using hle⟩
  have ho₁ : s₁.object o = s.object o := hadds₁.object o hsize
  obtain ⟨q, s₂, hback, hadds₂, -, hq⟩ := (givesTextIff_rest i o (counts_int s₁ n)).1
    ⟨hn, by rwa [ho₁]⟩
  have hadds := hadds₁.trans hadds₂
  have hp₂ : s₂.object p = s₁.object p :=
    hadds₂.object p (lt_size_of_behavior? (behavior?_of_string hadds₁ hp hstring))
  have hjoin : joinedText s₂ [.object q] = (s₂.object q).text := by
    have hq' := text_of_string (deref_of_not_reference s₂ rfl) (behavior?_of_string hadds hq hstring)
    simp [joinedText, hq']
  have htext : (s₂.object p).text ++ joinedText s₂ [.object q] = (s.object o).text := by
    rw [hjoin, hp₂, hp, hq, ho₁]
    change String.ofList ((s.object o).text.toList.take n.toInt.toNat) ++ String.ofList _ = _
    rw [← String.ofList_append, List.take_append_drop, String.ofList_toList]
  have hobject : toObject (.object p) s₂ = .ok p s₂ := rfl
  rw [bind_of_ok hfront, bind_of_ok hback, bind_of_ok hobject, ← htext]
  exact givesText_newString hadds _

end

/-- What the functions of a string do. -/
structure StringFunctions (s : State) (i : Interp) (o : ObjectId) : Prop where
  length : ∀ args, ∃ n, callBuiltin i .stringLength o args s = .ok (.int n) s ∧
    n.toInt = min (s.object o).text.length (2 ^ 63 - 1)
  part : ∀ a b start count, s.Counts (s.deref a) start → s.Counts (s.deref b) count →
    (callBuiltin i .stringSubstring o [a, b] s).GivesTextIff s
      (0 ≤ start.toInt ∧ 0 ≤ count.toInt ∧ start.toInt + count.toInt ≤ (s.object o).text.length)
      (String.ofList (((s.object o).text.toList.drop start.toInt.toNat).take count.toInt.toNat))
  rest : ∀ a start, s.Counts (s.deref a) start →
    (callBuiltin i .stringSubstring o [a] s).GivesTextIff s
      (0 ≤ start.toInt ∧ start.toInt ≤ (s.object o).text.length)
      (String.ofList ((s.object o).text.toList.drop start.toInt.toNat))
  /-- A string is its first characters and the rest. -/
  split : (s.classInfo .string).behavior = .string → ∀ n : Int64,
    0 ≤ n.toInt → n.toInt ≤ (s.object o).text.length →
    ((do
      let front ← callBuiltin i .stringSubstring o [.int 0, .int n]
      let back ← callBuiltin i .stringSubstring o [.int n]
      callBuiltin i .stringConcat (← toObject front) [back] : Eval Value) s).GivesText s
        (s.object o).text
  /-- A character is a part of length one. -/
  subscript : ∀ a n, s.Counts (s.deref a) n →
    (operatorSubscript o a s).GivesTextIff s (0 ≤ n.toInt ∧ n.toInt < (s.object o).text.length)
      (String.ofList (((s.object o).text.toList.drop n.toInt.toNat).take 1))
  concat : ∀ args, ∃ text, (callBuiltin i .stringConcat o args s).GivesText s text ∧
    text = (s.object o).text ++ String.join (args.map s.text) ∧
    text.length = (s.object o).text.length + (args.map fun a => (s.text a).length).sum
  codepoints : ∀ this args points, List.Forall₂ (fun a n => s.Counts (s.deref a) n) args points →
    ((∀ n ∈ points, IsScalarValue n.toInt) →
      ∃ text, (callBuiltin i .stringFromCodepoints this args s).GivesText s text ∧
        text.length = args.length ∧
        text.toList.map (fun c => (c.toNat : Int)) = points.map Int64.toInt) ∧
    ((¬∀ n ∈ points, IsScalarValue n.toInt) →
      (callBuiltin i .stringFromCodepoints this args s).Refuses s)

theorem stringFunctions (i : Interp) {o : ObjectId} (ho : s.behavior? o = some .string) :
    StringFunctions s i o where
  length _ := ⟨_, rfl, toInt_countOf _⟩
  part _ _ _ _ ha hb := givesTextIff_part i o ha hb
  rest _ _ ha := givesTextIff_rest i o ha
  split hstring _ hn hle := givesText_split i o ho hstring hn hle
  subscript _ _ ha := givesTextIff_operatorSubscript ho ha
  concat args := by
    refine ⟨_, givesText_newString (.refl s) _, rfl, ?_⟩
    rw [String.length_append, joinedText, String.length_join, List.map_map]
    rfl
  codepoints this args points hargs := by
    obtain ⟨hall, chars, hchars, hpoints⟩ | ⟨hnot, e, s', he, hadds⟩ := charactersOf_cases hargs
    · refine ⟨fun _ => ⟨String.ofList chars, ?_, ?_, ?_⟩, fun hnot => absurd hall hnot⟩
      · change (stringFromCodepoints args s).GivesText s _
        rw [stringFromCodepoints, bind_of_ok hchars]
        exact givesText_newString (.refl s) _
      · rw [String.length_ofList, hargs.length_eq]
        simpa using congrArg List.length hpoints
      · rwa [String.toList_ofList]
    · exact ⟨fun hall => absurd hall hnot, fun _ => ⟨e, s', bind_of_thrown he _, hadds⟩⟩

end Eval

open Eval in
/-- In every state the functions of a string give what is asked for exactly if it exists; in every state
that can be reached, new strings are strings. -/
theorem string_functions (s : State) (i : Interp) :
    (∀ o, s.behavior? o = some .string → StringFunctions s i o) ∧
    (s.Reached → (s.classInfo .string).behavior = .string) :=
  ⟨fun _ ho => stringFunctions i ho, fun hs => hs.fitted.2.behavior_eq .string⟩

open Eval State in
/-- Positions count characters, not the bytes that they take. -/
theorem string_functions_accented :
    ∃ (s : State) (o : ObjectId), s.behavior? o = some .string ∧ (s.object o).text = "aé" ∧
      (operatorSubscript o (.int 1) s).GivesText s "é" ∧ (operatorSubscript o (.int 2) s).Refuses s := by
  have hreached : (State.initial default).Reached := .between (.new none none default)
  obtain ⟨o, s, -, hadds, -, hobject⟩ := givesText_newString (.refl (State.initial default)) "aé"
  have ho := behavior?_of_string hadds hobject (hreached.fitted.2.behavior_eq .string)
  have htext : (s.object o).text = "aé" := by
    rw [hobject]
    rfl
  have hsubscript := ((string_functions s (interp 0)).1 o ho).subscript
  rw [htext] at hsubscript
  exact ⟨s, o, ho, htext, (hsubscript (.int 1) 1 (counts_int s 1)).1 (by decide),
    (hsubscript (.int 2) 2 (counts_int s 2)).2 (by decide)⟩

end Scripting
