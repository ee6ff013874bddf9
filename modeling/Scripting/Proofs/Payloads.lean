import Scripting.Proofs.Payloads.Makeshift

/-!
Every object of a built-in class carries the payload that its class expects.

This holds in all states of an interpreter without functions of the host, between its runs and in the
middle of them. Scopes are objects without a class, and no value that occurs is one (`Occurs`). So the
text of a string is never missing, and the faults of a function without a body and of a wrapper without
a class never occur. Main statement: `payloads_fit`.
-/

namespace Scripting

open State

/-- The values that occur while an interpreter runs scripts, each with the state in which it does: what
slots and `this` hold, what is called and with which arguments, what is given and thrown, and what a
source text ends with. -/
inductive Occurs : State → Value → Prop where
  | slot {s : State} (h : s.Reached) (i : SlotId) : Occurs s (s.slot i).value
  | this {s : State} (h : s.Reached) : Occurs s (.object s.thisObject)
  | method {s : State} {c : ClassId} {name : String} {f : ObjectId} (h : s.Reached)
      (hf : (s.classInfo c).methods.find? name = some f) : Occurs s (.object f)
  | callee {n : Nat} {v : Value} {args : List Value} {s : State}
      (h : Requested n (.call v args) s) : Occurs s v
  | argument {n : Nat} {v a : Value} {args : List Value} {s : State}
      (h : Requested n (.call v args) s) (ha : a ∈ args) : Occurs s a
  | given {n : Nat} {q : Request} {v : Value} {values : List Value} {s s' : State}
      (h : Requested n q s) (hanswer : q.answer (Eval.interp n) s = .ok values s')
      (hv : v ∈ values) : Occurs s' v
  | thrown {n : Nat} {q : Request} {e : Exception} {s s' : State} (h : Requested n q s)
      (hanswer : q.answer (Eval.interp n) s = .thrown e s') : Occurs s' e.value
  | result {n : Nat} {source : String} {mode : RunMode} {v : Value} {s s' : State}
      (h : s.BetweenRuns) (hrun : Eval.run n source mode s = .ok (.ok v) s') : Occurs s' v
  | uncaught {n : Nat} {source : String} {mode : RunMode} {e : Exception} {s s' : State}
      (h : s.BetweenRuns) (hrun : Eval.run n source mode s = .ok (.error (.uncaught e)) s') :
      Occurs s' e.value

section
open Discipline

variable {s : State}

theorem State.Reached.fitted (h : s.Reached) : s.Sealed ∧ s.Fitted :=
  fitted_lawful.reached fitted_hosts fitted_inv_install (fun _ => trivial) h

theorem State.BetweenRuns.fitted (h : s.BetweenRuns) : s.Sealed ∧ s.Fitted :=
  State.Reached.fitted (.between h)

theorem Requested.admits {n : Nat} {q : Request} (h : Requested n q s) :
    fitted.inv s ∧ fitted.Admits s q :=
  fitted_lawful.requested fitted_hosts fitted_inv_install (fun _ => trivial) h

/-- What occurs leads to no scope. -/
theorem Occurs.reaches {v : Value} (h : Occurs s v) : s.Sealed ∧ s.Reaches v := by
  have L := fitted_lawful
  cases h with
  | slot h i => exact ⟨h.fitted.1, (h.fitted.1.slots i).reaches⟩
  | this h => exact ⟨h.fitted.1, h.fitted.1.thisObject⟩
  | method h hf => exact ⟨h.fitted.1, h.fitted.1.methods _ _ _ hf⟩
  | callee h => exact ⟨h.admits.1.1, h.admits.2.1⟩
  | argument h ha => exact ⟨h.admits.1.1, L.good_of_stored (h.admits.2.2 _ ha)⟩
  | @given n q v values s₀ _ h hanswer hv =>
    have hend := (L.answer (n := n) fitted_hosts h.admits.1 h.admits.2).of_ok hanswer
    exact ⟨hend.1.1, hend.2.2 v hv⟩
  | @thrown n q e s₀ _ h hanswer =>
    have hend := (L.answer (n := n) fitted_hosts h.admits.1 h.admits.2).of_thrown hanswer
    exact ⟨hend.1.1, L.good_of_stored (L.raised_value hend.2.2)⟩
  | @result n source mode v s₀ _ h hrun =>
    have hend := (L.runCode (L.interprets fitted_hosts n) source mode h.fitted trivial).of_ok hrun
    exact ⟨hend.1.1, L.good_of_stored hend.2.2⟩
  | @uncaught n source mode e s₀ _ h hrun =>
    have hend := (L.runCode (L.interprets fitted_hosts n) source mode h.fitted trivial).of_ok hrun
    exact ⟨hend.1.1, L.good_of_stored (L.raised_value hend.2.2)⟩

theorem Occurs.not_isScope {v : Value} (h : Occurs s v) {o : ObjectId}
    (ho : s.deref v = .object o) : ¬s.IsScope o := by
  obtain ⟨hs, hv⟩ := h.reaches
  have hpublic := hs.deref hv
  rw [ho] at hpublic
  exact hpublic.2

end

/-- A string object has a text, which is also what it is shown as. -/
def State.HasText (s : State) (o : ObjectId) : Prop :=
  ∃ text, (s.object o).text? = some text ∧ (s.object o).text = text ∧ s.objectText o = text

theorem State.Fitted.hasText {s : State} (hs : s.Fitted) {o : ObjectId}
    (h : (s.object o).classId = some .string) : s.HasText o := by
  obtain ⟨text, hpayload⟩ := (hs.objects o).string h
  have htext : (s.object o).text? = some text := by rw [Object.text?, hpayload]
  have hgiven : (s.object o).text = text := by rw [Object.text, htext]; rfl
  have hbehavior : s.behavior? o = some .string := by
    rw [behavior?, classOf?, h]
    exact congrArg some (hs.behavior_eq .string)
  refine ⟨text, htext, hgiven, ?_⟩
  rw [objectText, hbehavior]
  exact hgiven

/-- In every state of an interpreter each object of a built-in class carries the payload that the class
expects, and what counts as a string has a text. The value behind any value that occurs is not a scope.
A run does the same whatever is done with a function without a body and a wrapper without a class, in
the place of the two faults: they never occur. -/
theorem payloads_fit :
    (∀ s : State, s.Reached → ∀ o, (s.object o).Fits ∧
      ((s.object o).classId = some .string ∨ s.behavior? o = some .string ∨
        s.isInstanceOf o .string = true → s.HasText o)) ∧
    (∀ s v o, Occurs s v → s.deref v = .object o → ¬s.IsScope o) ∧
    (∀ n, Makeshift.faults.interp n = Eval.interp n) ∧
    ∀ (makeshift : Makeshift) n source mode s, s.BetweenRuns →
      makeshift.run n source mode s = Eval.run n source mode s := by
  refine ⟨?_, fun s v o h => h.not_isScope, Makeshift.interp_faults, ?_⟩
  · intro s hs o
    have hfitted := hs.fitted.2
    refine ⟨hfitted.objects o, ?_⟩
    rintro (h | h | h)
    · exact hfitted.hasText h
    · exact hfitted.hasText (hfitted.classId_of_behavior? eq_string_of_behavior h)
    · exact hfitted.hasText (hfitted.classId_of_isInstanceOf (by decide) (by decide) h)
  · intro makeshift n source mode s hs
    exact makeshift.run_eq hs.fitted n source mode

/-- A script that calls the constructor on something else than a wrapper, and makes a string. -/
def detachedConstructor : String :=
  "let make = Object.__construct; try \x7b make(); \x7d catch (e) \x7b \x7d new String('abc');"

/-- The script ends with a string of the text. -/
def endsWithString (text : String) : Outcome (Except RunError Value) → Bool
  | .ok (.ok (.object o)) s =>
    decide ((s.object o).classId = some .string) && decide ((s.object o).text = text)
  | _ => false

theorem exists_of_endsWithString {text : String} {outcome : Outcome (Except RunError Value)}
    (h : endsWithString text outcome = true) :
    ∃ o s, outcome = .ok (.ok (.object o)) s ∧ (s.object o).classId = some .string ∧
      (s.object o).text = text := by
  unfold endsWithString at h
  split at h
  · rename_i o s
    rw [Bool.and_eq_true, decide_eq_true_iff, decide_eq_true_iff] at h
    exact ⟨o, s, rfl, h⟩
  · cases h

/-- The constructor does without a makeshift where it is called on no wrapper, and the string that the
script ends with has its text. -/
theorem payloads_fit_detached :
    (State.initial default).BetweenRuns ∧
    (⟨Eval.outOfFuel, Eval.outOfFuel⟩ : Makeshift).run 60 detachedConstructor .script
        (State.initial default) =
      Eval.run 60 detachedConstructor .script (State.initial default) ∧
    ∃ s o, s.Reached ∧ Occurs s (.object o) ∧ (s.object o).classId = some .string ∧
      (s.object o).text = "abc" ∧ (s.object o).Fits ∧ s.HasText o ∧ ¬s.IsScope o := by
  have hnew : (State.initial default).BetweenRuns := .new none none default
  have hcheck : endsWithString "abc"
      (Eval.run 60 detachedConstructor .script (State.initial default)) = true := by
    decide +kernel
  obtain ⟨o, s, hrun, hclass, htext⟩ := exists_of_endsWithString hcheck
  have hs : s.Reached := .between (.run 60 detachedConstructor .script hnew (.inl ⟨_, hrun⟩))
  have hoccurs : Occurs s (.object o) := .result hnew hrun
  obtain ⟨hfits, hhasText⟩ := payloads_fit.1 s hs o
  refine ⟨hnew, payloads_fit.2.2.2 _ 60 _ _ _ hnew, s, o, hs, hoccurs, hclass, htext, hfits,
    hhasText (.inl hclass), payloads_fit.2.1 s _ o hoccurs ?_⟩
  exact deref_of_not_reference s rfl

end Scripting
