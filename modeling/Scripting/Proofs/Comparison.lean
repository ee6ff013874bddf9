import Scripting.Proofs.Payloads

/-!
Comparing two values the other way around.

An object compares as the class of the left one says. Among the classes of scripts only strings do; they
compare with the text of whatever object is on the right. Main statement: the two comparisons of two
values mirror each other, unless both are objects and one of them alone is a string
(`comparison_mirrored`).
-/

namespace Scripting

namespace Comparison

/-- The comparison of the same values the other way around. -/
def swap : Comparison → Comparison
  | equal => equal
  | less => greater
  | greater => less
  | unknown => unknown

theorem swap_of_order {α : Type} [LE α] [LT α] [DecidableLT α] [DecidableEq α] [Std.IsLinearOrder α]
    [Std.LawfulOrderLT α] (a b : α) :
    (if b < a then less else if b = a then equal else greater) =
      (if a < b then less else if a = b then equal else greater : Comparison).swap := by
  rcases Std.lt_trichotomy a b with hlt | rfl | hgt
  · rw [if_neg (Std.not_gt_of_lt hlt), if_neg (Std.ne_of_lt hlt).symm, if_pos hlt]
    rfl
  · rw [if_neg Std.lt_irrefl, if_pos rfl]
    rfl
  · rw [if_pos hgt, if_neg (Std.not_gt_of_lt hgt), if_neg (Std.ne_of_lt hgt).symm]
    rfl

theorem ofInts_swap (a b : Int64) : ofInts b a = (ofInts a b).swap :=
  swap_of_order a b

theorem ofTexts_swap (a b : String) : ofTexts b a = (ofTexts a b).swap :=
  swap_of_order a b

end Comparison

/-- The operator that says the same with its sides exchanged, for an operator that compares. -/
def BinaryOp.mirrored? : BinaryOp → Option BinaryOp
  | .equal => some .equal
  | .notEqual => some .notEqual
  | .less => some .greater
  | .lessEqual => some .greaterEqual
  | .greater => some .less
  | .greaterEqual => some .lessEqual
  | _ => none

/-- From one state, both outcomes give a value without a change of the state, and the values are
related; or both are exceptions. -/
inductive Outcome.Paired {α : Type} (s : State) (R : α → α → Prop) : Outcome α → Outcome α → Prop where
  | given {a b : α} (h : R a b) : Paired s R (.ok a s) (.ok b s)
  | thrown (e e' : Exception) (t t' : State) : Paired s R (.thrown e t) (.thrown e' t')

namespace State

variable {s : State}

/-- The class of the object is not one that only a host can make. -/
def IsOrdinary (s : State) (o : ObjectId) : Prop :=
  s.behavior? o ≠ some .tally ∧ s.behavior? o ≠ some .echo

/-- Two objects are both strings, or none of them is. Nothing is asked of other values. -/
def Kindred (s : State) (a b : Value) : Prop :=
  ∀ o p, s.deref a = .object o → s.deref b = .object p →
    (s.behavior? o = some .string ↔ s.behavior? p = some .string)

/-- Scripts make no classes, and none of the built-in ones is like those of a host. -/
theorem Fitted.isOrdinary (hs : s.Fitted) (o : ObjectId) : s.IsOrdinary o := by
  have hinitial (c : ClassId) : (initialClasses.getD c.index default).behavior ≠ .tally ∧
      (initialClasses.getD c.index default).behavior ≠ .echo :=
    forall_initialClasses (P := fun _ info => info.behavior ≠ .tally ∧ info.behavior ≠ .echo)
      (by decide) (fun _ => by decide) c
  constructor
  · intro h
    obtain ⟨c, -, hbehavior⟩ := exists_of_behavior? h
    exact (hinitial c).1 (hs.behavior_eq c ▸ hbehavior)
  · intro h
    obtain ⟨c, -, hbehavior⟩ := exists_of_behavior? h
    exact (hinitial c).2 (hs.behavior_eq c ▸ hbehavior)

theorem text_of_string {v : Value} {o : ObjectId} (hv : s.deref v = .object o)
    (ho : s.behavior? o = some .string) : s.text v = (s.object o).text := by
  rw [text, hv]
  change s.objectText o = _
  rw [objectText, ho]

end State

namespace Eval

open State

variable {s : State} {a b : Value}

/-! What a comparison gives. -/

theorem compare_of_type_ne (h : (s.deref a).type ≠ (s.deref b).type) :
    compare a b s = .ok .unknown s := by
  unfold compare deref
  rw [look_bind, look_bind]
  generalize s.deref a = left at h
  generalize s.deref b = right at h
  cases left <;> cases right <;> first | rfl | exact absurd rfl h

theorem compare_of_objects {o p : ObjectId} (ha : s.deref a = .object o) (hb : s.deref b = .object p) :
    compare a b s = operatorCompare o (.object p) s := by
  unfold compare deref
  rw [look_bind, look_bind, ha, hb]

/-- A string on the left compares with the text of the other object. -/
theorem compare_of_string {o p : ObjectId} (ha : s.deref a = .object o) (hb : s.deref b = .object p)
    (ho : s.behavior? o = some .string) :
    compare a b s = .ok (Comparison.ofTexts (s.text a) (s.text b)) s := by
  have hright : s.text (.object p) = s.text b := by
    rw [text, text, hb]
    rfl
  rw [compare_of_objects ha hb, text_of_string ha ho, ← hright]
  unfold operatorCompare
  rw [look_bind, ho]
  rfl

/-- No other object of a script compares. -/
theorem compare_of_not_string {o p : ObjectId} (ha : s.deref a = .object o)
    (hb : s.deref b = .object p) (ho : s.behavior? o ≠ some .string) (hordinary : s.IsOrdinary o) :
    ∃ e t, compare a b s = .thrown e t := by
  obtain ⟨htally, hecho⟩ := hordinary
  rw [compare_of_objects ha hb]
  unfold operatorCompare
  rw [look_bind]
  cases hbehavior : s.behavior? o with
  | none => exact ⟨_, _, rfl⟩
  | some behavior =>
    rw [hbehavior] at ho htally hecho
    cases behavior with
    | string => exact absurd rfl ho
    | tally => exact absurd rfl htally
    | echo => exact absurd rfl hecho
    | _ => exact ⟨_, _, rfl⟩

/-! Both ways. -/

theorem compare_paired_of_objects {o p : ObjectId} (ha : s.deref a = .object o)
    (hb : s.deref b = .object p) (ho : s.IsOrdinary o) (hp : s.IsOrdinary p)
    (h : s.behavior? o = some .string ↔ s.behavior? p = some .string) :
    (compare a b s).Paired s (fun c d => d = c.swap) (compare b a s) := by
  by_cases hstring : s.behavior? o = some .string
  · rw [compare_of_string ha hb hstring, compare_of_string hb ha (h.1 hstring)]
    exact .given (Comparison.ofTexts_swap _ _)
  · obtain ⟨e, t, hleft⟩ := compare_of_not_string ha hb hstring ho
    obtain ⟨e', t', hright⟩ := compare_of_not_string hb ha (fun hp => hstring (h.2 hp)) hp
    rw [hleft, hright]
    exact .thrown e e' t t'

/-- Values of the same type that are not objects. -/
theorem compare_paired_of_type_eq (htype : (s.deref a).type = (s.deref b).type)
    (hobject : ∀ o, s.deref a ≠ .object o) :
    (compare a b s).Paired s (fun c d => d = c.swap) (compare b a s) := by
  unfold compare deref
  rw [look_bind, look_bind, look_bind, look_bind]
  generalize s.deref a = left at htype hobject
  generalize s.deref b = right at htype
  cases left with
  | object o => exact absurd rfl (hobject o)
  | int m =>
    cases right with
    | int n => exact .given (Comparison.ofInts_swap m n)
    | _ => cases htype
  | bool x =>
    cases right with
    | bool y =>
      apply Outcome.Paired.given
      by_cases h : x = y
      · rw [if_pos h, if_pos h.symm]
        rfl
      · rw [if_neg h, if_neg (Ne.symm h)]
        rfl
    | _ => cases htype
  | null =>
    cases right with
    | null => exact .given rfl
    | _ => cases htype
  | undefined =>
    cases right with
    | undefined => exact .given rfl
    | _ => cases htype
  | invalid =>
    cases right with
    | invalid => exact .thrown ..
    | _ => cases htype
  | reference r =>
    cases right with
    | reference r' => exact .thrown ..
    | _ => cases htype

theorem compare_paired (hordinary : ∀ o, s.IsOrdinary o) (h : s.Kindred a b) :
    (compare a b s).Paired s (fun c d => d = c.swap) (compare b a s) := by
  by_cases htype : (s.deref a).type = (s.deref b).type
  · cases ha : s.deref a with
    | object o =>
      cases hb : s.deref b with
      | object p => exact compare_paired_of_objects ha hb (hordinary o) (hordinary p) (h o p ha hb)
      | _ => rw [ha, hb] at htype; cases htype
    | _ => exact compare_paired_of_type_eq htype (by simp [ha])
  · rw [compare_of_type_ne htype, compare_of_type_ne (Ne.symm htype)]
    exact .given rfl

theorem compared_mirrored {op op' : BinaryOp} (h : op.mirrored? = some op') (c : Comparison) :
    compared op' c.swap = compared op c := by
  cases op <;> cases h <;> cases c <;> rfl

theorem binary_of_mirrored {op op' : BinaryOp} (h : op.mirrored? = some op') (a b : Value) :
    binary op a b = (do let c ← compare a b; return .bool (compared op c)) ∧
      binary op' b a = (do let c ← compare b a; return .bool (compared op' c)) := by
  cases op <;> cases h <;> exact ⟨rfl, rfl⟩

/-- An operator that compares, and its mirror image with the operands exchanged. -/
theorem binary_paired {op op' : BinaryOp} (hop : op.mirrored? = some op')
    (h : (compare a b s).Paired s (fun c d => d = c.swap) (compare b a s)) :
    (binary op a b s).Paired s Eq (binary op' b a s) := by
  obtain ⟨hleft, hright⟩ := binary_of_mirrored hop a b
  rw [hleft, hright]
  generalize hab : compare a b s = ab at h
  generalize hba : compare b a s = ba at h
  cases h with
  | @given c d hd =>
    rw [bind_of_ok hab, bind_of_ok hba, hd, compared_mirrored hop]
    exact .given rfl
  | thrown e e' t t' =>
    rw [bind_of_thrown hab, bind_of_thrown hba]
    exact .thrown e e' t t'

end Eval

open Eval State in
/-- In every state that scripts lead to, the comparisons of two values in the two orders both have a
result, the one the mirror image of the other, or both throw; and so do the operators that compare. It
is different only for two objects of which one is a string and the other is not: on the left the string
compares with the text of the other object, which itself compares with nothing. -/
theorem comparison_mirrored {s : State} (hs : s.Reached) (a b : Value) :
    (s.Kindred a b →
      (compare a b s).Paired s (fun c d => d = c.swap) (compare b a s) ∧
      ∀ op op', op.mirrored? = some op' → (binary op a b s).Paired s Eq (binary op' b a s)) ∧
    ∀ o p, s.deref a = .object o → s.deref b = .object p → s.behavior? o = some .string →
      s.behavior? p ≠ some .string →
      compare a b s = .ok (Comparison.ofTexts (s.text a) (s.text b)) s ∧
      ∃ e t, compare b a s = .thrown e t := by
  have hordinary := hs.fitted.2.isOrdinary
  constructor
  · intro h
    have hpaired := compare_paired hordinary h
    exact ⟨hpaired, fun op op' hop => binary_paired hop hpaired⟩
  · intro o p ha hb ho hp
    exact ⟨compare_of_string ha hb ho, compare_of_not_string hb ha hp (hordinary p)⟩

/-- The state has a string object with the text. -/
def State.hasString (s : State) (text : String) : Bool :=
  (List.range s.objects.size).any fun i =>
    decide (s.behavior? ⟨i⟩ = some .string) && decide ((s.object ⟨i⟩).text = text)

theorem State.exists_of_hasString {s : State} {text : String} (h : s.hasString text = true) :
    ∃ o, s.behavior? o = some .string ∧ (s.object o).text = text := by
  obtain ⟨i, -, hi⟩ := List.any_eq_true.1 h
  rw [Bool.and_eq_true, decide_eq_true_iff, decide_eq_true_iff] at hi
  exact ⟨⟨i⟩, hi⟩

/-- A run ended, with two string objects and a global object that is not a string. -/
def leavesTwoStrings (first second : String) : Outcome (Except RunError Value) → Bool
  | .ok _ s => s.hasString first && s.hasString second && decide (s.behavior? s.global = some .plain)
  | _ => false

theorem exists_two_strings :
    ∃ s : State, s.Reached ∧ s.behavior? s.global = some .plain ∧
      (∃ o, s.behavior? o = some .string ∧ (s.object o).text = "a") ∧
      ∃ o, s.behavior? o = some .string ∧ (s.object o).text = "b" := by
  have hcheck : leavesTwoStrings "a" "b"
      (Eval.run 40 "let t = 'a'; 'b'" .script (State.initial default)) = true := by
    decide +kernel
  unfold leavesTwoStrings at hcheck
  split at hcheck
  · rename_i r s hrun
    rw [Bool.and_eq_true, Bool.and_eq_true, decide_eq_true_iff] at hcheck
    have hreached : s.Reached :=
      .between (.run 40 _ .script (.new none none default) (.inl ⟨r, hrun⟩))
    exact ⟨s, hreached, hcheck.2, State.exists_of_hasString hcheck.1.1,
      State.exists_of_hasString hcheck.1.2⟩
  · cases hcheck

open Eval State in
/-- Two strings compare both ways; a string and the global object do not. -/
theorem comparison_mirrored_strings :
    ∃ (s : State) (o p : ObjectId), s.Reached ∧ (s.object o).text = "a" ∧ (s.object p).text = "b" ∧
      (compare (.object o) (.object p) s).Paired s (fun c d => d = c.swap)
        (compare (.object p) (.object o) s) ∧
      compare (.object o) (.object s.global) s =
        .ok (Comparison.ofTexts (s.text (.object o)) (s.text (.object s.global))) s ∧
      ∃ e t, compare (.object s.global) (.object o) s = .thrown e t := by
  obtain ⟨s, hs, hglobal, ⟨o, ho, hotext⟩, p, hp, hptext⟩ := exists_two_strings
  have hderef (o : ObjectId) : s.deref (.object o) = .object o := deref_of_not_reference s rfl
  have hkindred : s.Kindred (.object o) (.object p) := by
    intro o' p' ho' hp'
    rw [hderef] at ho' hp'
    cases ho'
    cases hp'
    exact ⟨fun _ => hp, fun _ => ho⟩
  have hother : s.behavior? s.global ≠ some .string := by
    rw [hglobal]
    nofun
  exact ⟨s, o, p, hs, hotext, hptext, ((comparison_mirrored hs _ _).1 hkindred).1,
    (comparison_mirrored hs _ _).2 o s.global (hderef o) (hderef s.global) ho hother⟩

open Eval State in
/-- A string compares with the global object, but not the global object with the string. -/
theorem comparison_one_sided :
    ¬∀ s : State, s.Reached → ∀ a b,
      (compare a b s).Paired s (fun c d => d = c.swap) (compare b a s) := by
  intro h
  obtain ⟨s, hs, hglobal, ⟨o, ho, -⟩, -⟩ := exists_two_strings
  have hderef (o : ObjectId) : s.deref (.object o) = .object o := deref_of_not_reference s rfl
  have hother : s.behavior? s.global ≠ some .string := by
    rw [hglobal]
    nofun
  have hpaired := h s hs (.object o) (.object s.global)
  obtain ⟨e, t, hthrown⟩ := compare_of_not_string (hderef s.global) (hderef o) hother
    (hs.fitted.2.isOrdinary s.global)
  rw [compare_of_string (hderef o) (hderef s.global) ho, hthrown] at hpaired
  cases hpaired

end Scripting
