import Scripting.Proofs.Comparison
import Scripting.Proofs.Path

/-!
Integers and texts: an integer survives the way into a text and back, and a string that denotes no integer
is joined by a `+`, while what there was stays as it is. Main statement: `integers_survive_text`.
-/

namespace Scripting

namespace State

variable {s s' s'' : State}

/-! States that grow. -/

/-- Objects and slots are added, and nothing else changes. -/
structure Adds (s s' : State) : Prop extends s.KeepsOld s' where
  objects : s.objects.size ≤ s'.objects.size
  object : ∀ o, o.index < s.objects.size → s'.object o = s.object o
  rest : s' = { s with objects := s'.objects, slots := s'.slots }

namespace Adds

theorem refl (s : State) : s.Adds s where
  toKeepsOld := .refl s
  objects := Nat.le_refl _
  object _ _ := rfl
  rest := rfl

theorem trans (h : s.Adds s') (h' : s'.Adds s'') : s.Adds s'' where
  toKeepsOld := h.toKeepsOld.trans h'.toKeepsOld
  objects := Nat.le_trans h.objects h'.objects
  object o ho := by rw [h'.object o (Nat.lt_of_lt_of_le ho h.objects), h.object o ho]
  rest := by rw [h'.rest, h.rest]

end Adds

theorem adds_addObject (s : State) (object : Object) : s.Adds (s.addObject object).2 where
  toKeepsOld := .of_slots rfl
  objects := by simp [addObject]
  object o ho := by rw [object_addObject, if_neg (Nat.ne_of_lt ho)]
  rest := rfl

theorem adds_newException (s : State) (c : ClassId) (message : String) :
    s.Adds (s.newException c message).2 where
  toKeepsOld := s.keepsOld_newException c message
  objects := by simp [newException, newString, addObject, allocate, addSlot, bindMember]; omega
  object o ho := by
    -- only the new exception gets a member
    have hne : o ≠ ⟨s.objects.size⟩ := fun h => Nat.ne_of_lt ho (congrArg ObjectId.index h)
    have hadded := (s.adds_addObject ⟨some c, {}, .exception ⟨message, s.backtrace⟩⟩).trans
      (adds_addObject _ ⟨some .string, {}, .string message⟩)
    exact (object_allocate_of_ne _ hne _ _ _).trans (hadded.object o ho)
  rest := rfl

theorem text_of_int {v : Value} {n : Int64} (h : s.deref v = .int n) :
    s.text v = toString n.toInt := by
  rw [text, h]

/-- An object with a class exists. -/
theorem lt_size_of_behavior? {o : ObjectId} {behavior : Behavior}
    (h : s.behavior? o = some behavior) : o.index < s.objects.size := by
  rw [← Nat.not_le]
  intro hle
  rw [behavior?, classOf?, object_of_size_le s hle] at h
  cases h

theorem Adds.behavior? (h : s.Adds s') {o : ObjectId} (ho : o.index < s.objects.size) :
    s'.behavior? o = s.behavior? o := by
  rw [State.behavior?, State.behavior?, classOf?, classOf?, h.object o ho, h.rest]
  rfl

end State

/-- A new string with a text is given, and what there was stays as it is. -/
def Outcome.GivesText (s : State) (text : String) (outcome : Outcome Value) : Prop :=
  ∃ o s', outcome = .ok (.object o) s' ∧ s.Adds s' ∧ s.objects.size ≤ o.index ∧
    s'.object o = { classId := some .string, payload := .string text }

namespace Eval

open State

variable {s s' : State} {v : Value} {n : Int64}

/-! Adding. -/

theorem givesText_newString (h : s.Adds s') (text : String) :
    (newString text s').GivesText s text := by
  refine ⟨⟨s'.objects.size⟩, (s'.newString text).2, rfl, h.trans (s'.adds_addObject _), h.objects, ?_⟩
  rw [State.newString, object_addObject, if_pos rfl]

variable {a b : Value} {x y : Int64}

/-- Values that both count as integers are added as such. -/
theorem add_of_counts (ha : s.Counts (s.deref a) x) (hb : s.Counts (s.deref b) y) :
    add a b s = .ok (.int (x + y)) s := by
  have hleft : toInt (s.deref a) s = .ok x s := toInt_of_counts (ha.deref.symm ▸ ha)
  have hright : toInt (s.deref b) s = .ok y s := toInt_of_counts (hb.deref.symm ▸ hb)
  simp only [add, deref, look, attempt, bind, andThen, hleft, hright]
  rfl

/-- A string that counts as no integer is joined with an integer. -/
theorem add_of_not_counts {o : ObjectId} (ha : s.deref a = .int x) (hb : s.deref b = .object o)
    (ho : s.behavior? o = some .string) (hnot : ∀ n, ¬s.Counts (.object o) n) :
    (add a b s).GivesText s (s.text a ++ (s.object o).text) ∧
      (add b a s).GivesText s ((s.object o).text ++ s.text a) := by
  have hsize := lt_size_of_behavior? ho
  have hderef (s : State) : s.deref (.object o) = .object o := deref_of_not_reference s rfl
  have hint (s : State) : toInt (.int x) s = .ok x s :=
    toInt_of_counts (by rw [deref_of_not_reference s rfl]; exact .int x)
  obtain ⟨m, hm, -⟩ | ⟨-, fault, hfail⟩ := toInt_cases (.object o) s
  · exact absurd (hderef s ▸ hm) (hnot m)
  -- both ways the conversion of the string adds an exception, and the texts are the same behind it
  have hadds : s.Adds (s.newException .exception fault.message).2 := s.adds_newException _ _
  have hthrown : toInt (.object o) s =
    .thrown _ (s.newException .exception fault.message).2 := hfail
  have hbehavior := hadds.behavior? hsize
  rw [ho] at hbehavior
  have hobject := hadds.object o hsize
  generalize (s.newException .exception fault.message).2 = s₁ at hthrown hadds hbehavior hobject
  have htext : s₁.text (.object o) = (s.object o).text := by
    rw [text_of_string (hderef s₁) hbehavior, hobject]
  have hleft : s₁.text (.int x) = s.text a := by
    rw [text_of_int (deref_of_not_reference s₁ rfl), text_of_int ha]
  constructor
  · simp only [add, deref, look, attempt, bind, andThen, ha, hb, hint, hthrown, htext, hleft]
    exact givesText_newString hadds _
  · simp only [add, deref, look, attempt, bind, andThen, ha, hb, hint, hthrown, operatorAdd, hbehavior,
      hobject, hleft]
    exact givesText_newString hadds _

/-! Integers as strings. -/

/-- A string object counts as the integer that its text denotes. -/
theorem counts_string_iff {o : ObjectId} (ho : s.behavior? o = some .string) :
    s.Counts (.object o) n ↔ Text.Denotes (s.object o).text.toList n.toInt := by
  simp [counts_object_iff, ho, Text.textToInt?_eq_some_iff]

/-- A new string is a string. -/
theorem behavior?_of_string {o : ObjectId} {text : String} (hadds : s.Adds s')
    (hobject : s'.object o = { classId := some .string, payload := .string text })
    (hstring : (s.classInfo .string).behavior = .string) : s'.behavior? o = some .string := by
  rw [State.behavior?, classOf?, hobject, hadds.rest]
  exact congrArg some hstring

theorem exists_denotes_iff {text : List Char} :
    (∃ n : Int64, Text.Denotes text n.toInt) ↔
      ∃ z, Text.Denotes text z ∧ -2 ^ 63 ≤ z ∧ z ≤ 2 ^ 63 - 1 := by
  simp only [← Text.exists_toInt_eq_iff]
  constructor
  · exact fun ⟨n, h⟩ => ⟨_, h, n, rfl⟩
  · rintro ⟨_, h, n, rfl⟩
    exact ⟨n, h⟩

/-- A new string has the text of the argument. -/
theorem givesText_constructWrapped {this : ObjectId} (hthis : (s.object this).wrapped? = some .string)
    (hstring : (s.classInfo .string).behavior = .string) (ha : s.deref a ≠ .undefined) :
    (constructWrapped this [a] s).GivesText s (s.text a) := by
  have hrun : constructWrapped this [a] s = newString (s.text a) s := by
    simp [constructWrapped, construct, textOrEmpty, isDefined, look, bind, andThen, hthis, hstring, ha]
    rfl
  rw [hrun]
  exact givesText_newString (.refl s) _

end Eval

open Eval State in
/-- A string converts exactly if its text, blanks at its ends apart, is an optional sign with digits whose
number is one of 64 bits, and then to that number; so an integer comes back from the text it is shown as.
Any other string is joined with an integer by `+`, on either side, and no slot or object that there was
is changed. -/
theorem integers_survive_text (s : State) :
    (∀ o, s.behavior? o = some .string →
      let text := (s.object o).text
      let inRange := ∃ z, Text.Denotes text.toList z ∧ -2 ^ 63 ≤ z ∧ z ≤ 2 ^ 63 - 1
      (∀ (n : Int64) (front back : List Char), (∀ c ∈ front, Text.isBlank c = true) →
        (∀ c ∈ back, Text.isBlank c = true) →
        text.toList = front ++ (s.text (.int n)).toList ++ back → toInt (.object o) s = .ok n s) ∧
      (∀ n s', toInt (.object o) s = .ok n s' ↔ Text.Denotes text.toList n.toInt ∧ s' = s) ∧
      ((∃ n, toInt (.object o) s = .ok n s) ↔ inRange) ∧
      (¬inRange → toInt (.object o) s = fail (.notANumber text) s ∧
        ∀ a b n, s.deref a = .int n → s.deref b = .object o →
          (add a b s).GivesText s (s.text a ++ text) ∧
          (add b a s).GivesText s (text ++ s.text a))) ∧
    (s.Reached → (s.classInfo .string).behavior = .string) ∧
    ∀ i this this' a n, (s.classInfo .string).behavior = .string →
      (s.object this).wrapped? = some .string → s.deref a = .int n →
      ∃ o s', callBuiltin i .construct this [a] s = .ok (.object o) s' ∧ s.Adds s' ∧
        callBuiltin i .toInt this' [.object o] s' = .ok (.int n) s' := by
  have hderef (s : State) (o : ObjectId) : s.deref (.object o) = .object o :=
    deref_of_not_reference s rfl
  refine ⟨?_, fun hs => hs.fitted.2.behavior_eq .string, ?_⟩
  · intro o ho text inRange
    have hiff (n : Int64) (s' : State) :
        toInt (.object o) s = .ok n s' ↔ Text.Denotes text.toList n.toInt ∧ s' = s := by
      rw [toInt_eq_ok_iff, hderef, counts_string_iff ho]
    refine ⟨?_, hiff, ?_, ?_⟩
    · intro n front back hfront hback htext
      rw [hiff, htext]
      exact ⟨Text.denotes_toString hfront n.toInt hback, rfl⟩
    · simp only [hiff, and_true]
      exact exists_denotes_iff
    · intro hnot
      have hnone : ∀ n, ¬s.Counts (.object o) n := fun n hn =>
        hnot (exists_denotes_iff.1 ⟨n, (counts_string_iff ho).1 hn⟩)
      refine ⟨?_, fun a b n ha hb => add_of_not_counts ha hb ho hnone⟩
      rw [toInt_of_string (hderef s o) ho]
      cases hread : textToInt? text with
      | none => rfl
      | some n => exact absurd (counts_object_iff.2 (.inl ⟨ho, hread⟩)) (hnone n)
  · intro i this this' a n hstring hthis ha
    obtain ⟨o, s', hrun, hadds, -, hobject⟩ :=
      givesText_constructWrapped hthis hstring (by rw [ha]; nofun)
    refine ⟨o, s', hrun, hadds, ?_⟩
    have hcounts : s'.Counts (s'.deref (.object o)) n := by
      have htext : (s'.object o).text = toString n.toInt := by
        rw [hobject, text_of_int ha]
        rfl
      rw [hderef, counts_string_iff (behavior?_of_string hadds hobject hstring), htext]
      simpa using Text.denotes_toString (List.forall_mem_nil _) n.toInt (List.forall_mem_nil _)
    exact bind_of_ok (toInt_of_counts hcounts) _

open Eval State in
/-- The least integer, which has no positive counterpart, between blanks. -/
theorem integers_survive_text_least :
    ∃ (s : State) (o : ObjectId), s.behavior? o = some .string ∧
      (s.object o).text = "\t-9223372036854775808 " ∧
      toInt (.object o) s = .ok Int64.minValue s := by
  have hreached : (State.initial default).Reached := .between (.new none none default)
  have hstring := hreached.fitted.2.behavior_eq .string
  obtain ⟨o, s, -, hadds, -, hobject⟩ :=
    givesText_newString (.refl (State.initial default)) "\t-9223372036854775808 "
  have ho := behavior?_of_string hadds hobject hstring
  have htext : (s.object o).text = "\t-9223372036854775808 " := by
    rw [hobject]
    rfl
  refine ⟨s, o, ho, htext, ((integers_survive_text s).1 o ho).1 _ ['\t'] [' '] ?_ ?_ ?_⟩
  · exact List.forall_mem_singleton.2 rfl
  · exact List.forall_mem_singleton.2 rfl
  · rw [htext, text_of_int (deref_of_not_reference s rfl)]
    decide

end Scripting
