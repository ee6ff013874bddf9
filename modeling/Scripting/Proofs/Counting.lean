import Scripting.Proofs.Computation
import Scripting.Proofs.Heap
import Scripting.Proofs.Numerals

/-!
What values count as in arithmetic.

`State.Counts` says it without saying how the number is found. Main statement: a conversion to an integer
gives exactly what the value counts as, and changes nothing then (`Eval.toInt_eq_ok_iff`).
-/

namespace Scripting

namespace State

variable {s : State}

/-- The integer that a value counts as, if it is not a reference. -/
inductive Counts (s : State) : Value → Int64 → Prop where
  | null : Counts s .null 0
  | undefined : Counts s .undefined 0
  | int (n : Int64) : Counts s (.int n) n
  | bool (b : Bool) : Counts s (.bool b) (if b then 1 else 0)
  | string {o : ObjectId} {n : Int64} (behavior : s.behavior? o = some .string)
      (denotes : Text.Denotes (s.object o).text.toList n.toInt) : Counts s (.object o) n
  | tally {o : ObjectId} {n : Int64} (behavior : s.behavior? o = some .tally)
      (value : (s.object o).hostInt? = some n) : Counts s (.object o) n

theorem counts_object_iff {o : ObjectId} {n : Int64} : s.Counts (.object o) n ↔
    s.behavior? o = some .string ∧ Eval.textToInt? (s.object o).text = some n ∨
    s.behavior? o = some .tally ∧ (s.object o).hostInt? = some n := by
  rw [Text.textToInt?_eq_some_iff]
  constructor
  · rintro (_ | _ | _ | _ | h | h)
    · exact .inl ⟨h, ‹_›⟩
    · exact .inr ⟨h, ‹_›⟩
  · rintro (⟨h, hn⟩ | ⟨h, hn⟩)
    · exact .string h hn
    · exact .tally h hn

/-- A value counts as one integer at most. -/
theorem Counts.unique {v : Value} {m n : Int64} (hm : s.Counts v m) (hn : s.Counts v n) : m = n := by
  cases v with
  | object o =>
    rw [counts_object_iff] at hm hn
    grind
  | _ => cases hm <;> cases hn <;> rfl

/-- What counts as an integer is no reference. -/
theorem Counts.deref {v : Value} {n : Int64} (h : s.Counts v n) : s.deref v = v := by
  cases h <;> exact deref_of_not_reference s rfl

end State

namespace Eval

open State

variable {s s' : State} {v : Value} {n : Int64}

theorem toInt_of_object {o : ObjectId} (h : s.deref v = .object o) :
    toInt v s = (toPrimitive o .int >>= fun
      | .int n => pure n
      | other => fail (.cannotConvert other.type.text "int")) s := by
  have hrun : toInt v s = _ := look_bind (·.deref v) _ s
  rw [h] at hrun
  exact hrun

/-- A string object converts to the number that its text denotes. -/
theorem toInt_of_string {o : ObjectId} (h : s.deref v = .object o)
    (ho : s.behavior? o = some .string) :
    toInt v s = match textToInt? (s.object o).text with
      | some n => .ok n s
      | none => fail (.notANumber (s.object o).text) s := by
  rw [toInt_of_object h]
  simp only [toPrimitive, look, bind, andThen, ho]
  cases textToInt? (s.object o).text <;> rfl

/-- A tally converts to its number. -/
theorem toInt_of_tally {o : ObjectId} (h : s.deref v = .object o)
    (ho : s.behavior? o = some .tally) :
    toInt v s = match (s.object o).hostInt? with
      | some n => .ok n s
      | none => fail (.noTally ValueType.int.text) s := by
  rw [toInt_of_object h]
  simp only [toPrimitive, look, bind, andThen, ho]
  cases (s.object o).hostInt? <;> rfl

theorem toInt_of_other {o : ObjectId} (h : s.deref v = .object o)
    (hstring : s.behavior? o ≠ some .string) (htally : s.behavior? o ≠ some .tally) :
    ∃ fault, toInt v s = fail fault s := by
  rw [toInt_of_object h]
  simp only [toPrimitive, look, bind, andThen]
  cases ho : s.behavior? o with
  | none => exact ⟨_, rfl⟩
  | some behavior => cases behavior <;> first | exact ⟨_, rfl⟩ | contradiction

theorem toInt_cases (v : Value) (s : State) :
    (∃ n, s.Counts (s.deref v) n ∧ toInt v s = .ok n s) ∨
    (∀ n, ¬s.Counts (s.deref v) n) ∧ ∃ fault, toInt v s = fail fault s := by
  have hplain : toInt v s = _ := look_bind (·.deref v) _ s
  cases hv : s.deref v with
  | null => exact .inl ⟨_, .null, by rw [hplain, hv]; rfl⟩
  | undefined => exact .inl ⟨_, .undefined, by rw [hplain, hv]; rfl⟩
  | int n => exact .inl ⟨_, .int n, by rw [hplain, hv]; rfl⟩
  | bool b => exact .inl ⟨_, .bool b, by rw [hplain, hv]; rfl⟩
  | invalid => exact .inr ⟨nofun, _, by rw [hplain, hv]⟩
  | reference r => exact .inr ⟨nofun, _, by rw [hplain, hv]⟩
  | object o =>
    simp only [counts_object_iff]
    by_cases hstring : s.behavior? o = some .string
    · rw [toInt_of_string hv hstring]
      cases textToInt? (s.object o).text with
      | some n => exact .inl ⟨n, by simp [hstring], rfl⟩
      | none => exact .inr ⟨by simp [hstring], _, rfl⟩
    by_cases htally : s.behavior? o = some .tally
    · rw [toInt_of_tally hv htally]
      cases (s.object o).hostInt? with
      | some n => exact .inl ⟨n, by simp [htally], rfl⟩
      | none => exact .inr ⟨by simp [htally], _, rfl⟩
    · exact .inr ⟨by simp [hstring, htally], toInt_of_other hv hstring htally⟩

/-- A conversion gives what a value counts as, and changes nothing then. -/
theorem toInt_eq_ok_iff : toInt v s = .ok n s' ↔ s.Counts (s.deref v) n ∧ s' = s := by
  obtain ⟨m, hm, hrun⟩ | ⟨hnot, fault, hrun⟩ := toInt_cases v s
  · rw [hrun]
    constructor
    · rintro ⟨⟩
      exact ⟨hm, rfl⟩
    · rintro ⟨hn, rfl⟩
      rw [hm.unique hn]
  · rw [hrun]
    exact ⟨nofun, fun h => absurd h.1 (hnot n)⟩

theorem toInt_of_counts (h : s.Counts (s.deref v) n) : toInt v s = .ok n s :=
  toInt_eq_ok_iff.2 ⟨h, rfl⟩

theorem counts_int (s : State) (n : Int64) : s.Counts (s.deref (.int n)) n := by
  rw [deref_of_not_reference s rfl]
  exact .int n

end Eval

end Scripting
