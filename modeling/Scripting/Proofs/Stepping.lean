import Scripting.Proofs.Path
import Scripting.Proofs.Ranked

/-!
The operators `++` and `--`.

They agree with the assignments `x += 1` and `x -= 1`, and they are atomic: either the slot of the
operand holds the next integer and nothing else has changed, or no slot has changed at all.

Main statement: `steps_agree_with_assignments`.
-/

namespace Scripting

/-- The operators that step: in front of an operand, behind it, and by how much. -/
inductive UnaryOp.Steps : UnaryOp → UnaryOp → Int64 → Prop where
  | increment : Steps .preIncrement .postIncrement 1
  | decrement : Steps .preDecrement .postDecrement (-1)

/-- The same end, with another value if there is one. -/
def Outcome.giving {α β : Type} (b : β) : Outcome α → Outcome β
  | .ok _ s => .ok b s
  | .thrown e s => .thrown e s
  | .outOfFuel => .outOfFuel
  | .needsFile path => .needsFile path

/-- The slot of a reference could be written and held what converts to an integer. Now it holds the
integer that is `delta` above it, and nothing else has changed. -/
def State.StepsTo (s : State) (r : Reference) (delta : Int64) (s' : State) : Prop :=
  (s.slot r.slot).readOnly = false ∧
    ∃ n, Eval.toInt (s.read r) s = .ok n s ∧ s' = s.writeSlot r.slot (.int (n + delta))

namespace State

variable {s : State}

/-- A value converts as what is behind it does. -/
theorem Ranked.toInt_deref (hs : s.Ranked) (v : Value) :
    Eval.toInt (s.deref v) s = Eval.toInt v s := by
  have hsame : s.deref (s.deref v) = s.deref v :=
    deref_of_not_reference s (hs.isReference_deref v)
  unfold Eval.toInt Eval.deref
  rw [Eval.look_bind, Eval.look_bind, hsame]

end State

namespace Eval

variable {s : State} {r : Reference} {x : Expr} {n : Nat}

/-! Steps. -/

theorem step_of_not_reference {v : Value} (h : v.isReference = false) (delta : Int64) (s : State) :
    step v delta s = fail (.cannotBind v.type.text) s := by
  cases v with
  | reference r => cases h
  | _ => rfl

theorem step_of_readOnly (h : (s.slot r.slot).readOnly = true) (delta : Int64) :
    step (.reference r) delta s = fail .readOnlyReference s := by
  have hr := toWritableReference_of_readOnly h
  unfold step
  rw [bind_of_thrown hr]
  rfl

theorem step_of_stepsTo {delta : Int64} {s' : State} (h : s.StepsTo r delta s') :
    step (.reference r) delta s = .ok () s' := by
  obtain ⟨hwritable, n, hn, rfl⟩ := h
  unfold step
  rw [bind_of_ok (toWritableReference_of_writable hwritable), look_bind, bind_of_ok hn,
    assign_of_writable hwritable]
  rfl

theorem step_of_fail (h : (s.slot r.slot).readOnly = false) {fault : Fault}
    (hfault : toInt (s.read r) s = fail fault s) (delta : Int64) :
    step (.reference r) delta s = fail fault s := by
  unfold step
  rw [bind_of_ok (toWritableReference_of_writable h), look_bind, bind_of_thrown hfault]
  rfl

/-- A step succeeds exactly if the operand is a reference whose slot can be stepped; else it fails. -/
theorem step_cases (v : Value) (delta : Int64) (s : State) :
    (∃ r s', v = .reference r ∧ s.StepsTo r delta s' ∧ step v delta s = .ok () s') ∨
      ∃ fault, step v delta s = fail fault s := by
  cases v with
  | reference r =>
    cases hreadOnly : (s.slot r.slot).readOnly with
    | true => exact .inr ⟨_, step_of_readOnly hreadOnly delta⟩
    | false =>
      rcases toInt_cases (s.read r) s with ⟨n, -, hn⟩ | ⟨-, fault, hfault⟩
      · have hsteps : s.StepsTo r delta _ := ⟨hreadOnly, n, hn, rfl⟩
        exact .inl ⟨r, _, rfl, hsteps, step_of_stepsTo hsteps⟩
      · exact .inr ⟨fault, step_of_fail hreadOnly hfault delta⟩
  | _ => exact .inr ⟨_, step_of_not_reference rfl delta s⟩

theorem stepBefore_eq (v : Value) (delta : Int64) (s : State) :
    stepBefore v delta s = (step v delta s).giving v := by
  change andThen (step v delta) _ s = _
  rw [andThen]
  cases step v delta s <;> rfl

theorem stepAfter_eq (v : Value) (delta : Int64) (s : State) :
    stepAfter v delta s = (step v delta s).giving (s.deref v) := by
  change andThen (step v delta) _ s = _
  rw [andThen]
  cases step v delta s <;> rfl

/-! The assignments `x += 1` and `x -= 1`, once the operand is evaluated. -/

/-- Holding things while a value is given changes nothing. -/
theorem holding_pure {α : Type} (nodes : List Node) (a : α) (s : State) :
    holding nodes (pure a) s = .ok a s := by
  unfold holding
  dsimp only
  split <;> rfl

/-- What is left of `x += 1` and `x -= 1` when `x` is evaluated to a slot that can be written. -/
theorem assignExpr_literal {op : AssignOp} {s₁ : State} (span : Span) (k : Int64)
    (hx : evaluate n x s = .ok (.reference r) s₁) (hwritable : (s₁.slot r.slot).readOnly = false) :
    assignExpr (interp n) op x (.integer span k) s =
      (combine op (.reference r) (.int k) >>= fun new => assign r new >>= fun _ =>
        pure (.reference r)) s₁ := by
  cases n with
  | zero => cases hx
  | succ n =>
    have hliteral : holding (Value.reference r).nodes ((interp (n + 1)).evaluate (.integer span k))
        s₁ = .ok (.int k) s₁ := holding_pure _ _ s₁
    have hx' : (interp (n + 1)).evaluate x s = .ok (.reference r) s₁ := hx
    rw [assignExpr_of_writable hx' hwritable, bind_of_ok hliteral]

/-- If the old value converts to an integer, so does the sum or the difference. -/
theorem combine_literal (hs : s.Ranked) {n : Int64} (hn : toInt (s.read r) s = .ok n s)
    (k : Int64) :
    combine .add (.reference r) (.int k) s = .ok (.int (n + k)) s ∧
      combine .subtract (.reference r) (.int k) s = .ok (.int (n - k)) s := by
  have hold : toInt (.reference r) s = .ok n s := (hs.toInt_reference r).trans hn
  have hnew : toInt (.int k) s = .ok k s := rfl
  have hbehind : toInt (s.deref (.reference r)) s = .ok n s := (hs.toInt_deref _).trans hold
  constructor
  · change add (.reference r) (.int k) s = _
    unfold add deref
    rw [look_bind, look_bind]
    have hleft : attempt (toInt (s.deref (.reference r))) s = .ok (.ok n) s := by
      rw [attempt, hbehind]
    rw [bind_of_ok hleft]
    rfl
  · change subtract (.reference r) (.int k) s = _
    unfold subtract
    rw [bind_of_ok hold, bind_of_ok hnew]
    rfl

/-- If it does not, the difference fails in the same way. -/
theorem combine_subtract_of_fail (hs : s.Ranked) {fault : Fault}
    (hfault : toInt (s.read r) s = fail fault s) (v : Value) :
    combine .subtract (.reference r) v s = fail fault s := by
  have hold : toInt (.reference r) s = fail fault s := (hs.toInt_reference r).trans hfault
  change subtract (.reference r) v s = _
  unfold subtract
  rw [bind_of_thrown hold]
  rfl

/-! Expressions. -/

/-- An operator in front of an expression or behind it, once this is evaluated. -/
theorem evaluate_unary (n : Nat) (span : Span) (op : UnaryOp) (x : Expr) (s : State) :
    evaluate (n + 1) (.unary span op x) s = (evaluate n x >>= unary op) s := rfl

/-- An operator and an assignment agree if they do so once the operand is evaluated to a reference. -/
theorem evaluate_unary_eq_assign {x value : Expr} {op : UnaryOp} {op' : AssignOp}
    (hx : x.IsPath) (span span' : Span)
    (h : ∀ r s₁, evaluate n x s = .ok (.reference r) s₁ →
      unary op (.reference r) s₁ = assignExpr (interp n) op' x value s) :
    evaluate (n + 1) (.unary span op x) s = evaluate (n + 1) (.assign span' op' x value) s := by
  rw [evaluate_unary]
  change _ = assignExpr (interp n) op' x value s
  by_cases hok : ∃ v s₁, evaluate n x s = .ok v s₁
  · obtain ⟨v, s₁, hrun⟩ := hok
    have hend := evaluate_path hx n s
    rw [hrun] at hend
    obtain ⟨r, rfl, -⟩ := hend
    rw [bind_of_ok hrun]
    exact h r s₁ hrun
  · exact bind_congr_at fun v s₁ hrun => absurd ⟨v, s₁, hrun⟩ hok

/-- The evaluation of an expression keeps references ranked. -/
theorem ranked_of_evaluate {v : Value} {s₁ : State} (hs : s.Ranked)
    (h : evaluate n x s = .ok v s₁) : s₁.Ranked :=
  hs.operates (.evaluate n x (.inl ⟨v, h⟩))

/-- A step and an assignment agree if the new value of the assignment is the next integer, or fails
as the conversion of the old one does. -/
theorem stepBefore_eq_assign {op : AssignOp} {delta : Int64} {s₁ : State}
    (span : Span) (hrun : evaluate n x s = .ok (.reference r) s₁)
    (hok : ∀ m, toInt (s₁.read r) s₁ = .ok m s₁ →
      combine op (.reference r) (.int 1) s₁ = .ok (.int (m + delta)) s₁)
    (hfail : ∀ fault, toInt (s₁.read r) s₁ = fail fault s₁ →
      combine op (.reference r) (.int 1) s₁ = fail fault s₁) :
    stepBefore (.reference r) delta s₁ = assignExpr (interp n) op x (.integer span 1) s := by
  rw [stepBefore_eq]
  cases hreadOnly : (s₁.slot r.slot).readOnly with
  | true =>
    have hrun' : (interp n).evaluate x s = .ok (.reference r) s₁ := hrun
    rw [step_of_readOnly hreadOnly, assignExpr_of_readOnly hrun' hreadOnly]
    rfl
  | false =>
    rw [assignExpr_literal span 1 hrun hreadOnly]
    rcases toInt_cases (s₁.read r) s₁ with ⟨m, -, hm⟩ | ⟨-, fault, hfault⟩
    · rw [step_of_stepsTo ⟨hreadOnly, m, hm, rfl⟩, bind_of_ok (hok m hm),
        bind_of_ok (assign_of_writable hreadOnly _)]
      rfl
    · rw [step_of_fail hreadOnly hfault, bind_of_thrown (hfail fault hfault)]
      rfl

theorem preDecrement_eq (hx : x.IsPath) (hs : s.Ranked) (span span' span'' : Span) :
    evaluate (n + 1) (.unary span .preDecrement x) s =
      evaluate (n + 1) (.assign span' .subtract x (.integer span'' 1)) s := by
  apply evaluate_unary_eq_assign hx
  intro r s₁ hrun
  have hs₁ := ranked_of_evaluate hs hrun
  apply stepBefore_eq_assign span'' hrun
  · intro m hm
    rw [(combine_literal hs₁ hm 1).2, Int64.sub_eq_add_neg]
  · exact fun fault hfault => combine_subtract_of_fail hs₁ hfault _

/-- The sum need not be one of integers, so the old value has to convert to one. -/
theorem preIncrement_eq (hx : x.IsPath) (hs : s.Ranked)
    (hint : ∀ r s₁, evaluate n x s = .ok (.reference r) s₁ →
      ∃ m, toInt (s₁.read r) s₁ = .ok m s₁)
    (span span' span'' : Span) :
    evaluate (n + 1) (.unary span .preIncrement x) s =
      evaluate (n + 1) (.assign span' .add x (.integer span'' 1)) s := by
  apply evaluate_unary_eq_assign hx
  intro r s₁ hrun
  have hs₁ := ranked_of_evaluate hs hrun
  apply stepBefore_eq_assign span'' hrun
  · exact fun m hm => (combine_literal hs₁ hm 1).1
  · intro fault hfault
    obtain ⟨m, hm⟩ := hint r s₁ hrun
    rw [hm] at hfault
    cases hfault

/-! Both forms of a step. -/

section
variable {pre post op : UnaryOp} {delta : Int64}

theorem unary_pre (hop : UnaryOp.Steps pre post delta) (v : Value) (s : State) :
    unary pre v s = (step v delta s).giving v := by
  cases hop <;> exact stepBefore_eq v _ s

theorem unary_post (hop : UnaryOp.Steps pre post delta) (v : Value) (s : State) :
    unary post v s = (step v delta s).giving (s.deref v) := by
  cases hop <;> exact stepAfter_eq v _ s

/-- The operator behind the operand does the same, but gives the value that the operand had before. -/
theorem evaluate_post (hop : UnaryOp.Steps pre post delta) (span : Span) {v : Value} {s₁ : State}
    (hrun : evaluate n x s = .ok v s₁) :
    evaluate (n + 1) (.unary span post x) s =
      (evaluate (n + 1) (.unary span pre x) s).giving (s₁.deref v) := by
  rw [evaluate_unary, evaluate_unary, bind_of_ok hrun, bind_of_ok hrun, unary_pre hop,
    unary_post hop]
  cases step v delta s₁ <;> rfl

theorem evaluate_post_of_not_ok (span : Span) (hnot : ∀ v s₁, evaluate n x s ≠ .ok v s₁) :
    evaluate (n + 1) (.unary span post x) s = evaluate (n + 1) (.unary span pre x) s :=
  bind_congr_at fun v s₁ hrun => absurd hrun (hnot v s₁)

theorem exists_unary_eq (hop : UnaryOp.Steps pre post delta) (h : op = pre ∨ op = post) (v : Value)
    (s : State) : ∃ w, unary op v s = (step v delta s).giving w := by
  rcases h with rfl | rfl
  · exact ⟨v, unary_pre hop v s⟩
  · exact ⟨s.deref v, unary_post hop v s⟩

/-- Both forms succeed exactly if the operand leads to a slot that can be stepped. -/
theorem evaluate_step_ok_iff (hop : UnaryOp.Steps pre post delta) (h : op = pre ∨ op = post)
    (span : Span) (s' : State) :
    (∃ w, evaluate (n + 1) (.unary span op x) s = .ok w s') ↔
      ∃ r s₁, evaluate n x s = .ok (.reference r) s₁ ∧ s₁.StepsTo r delta s' := by
  rw [evaluate_unary]
  constructor
  · rintro ⟨w, hok⟩
    obtain ⟨v, s₁, hrun, hstep⟩ := exists_of_bind_ok hok
    obtain ⟨w', hunary⟩ := exists_unary_eq hop h v s₁
    rcases step_cases v delta s₁ with ⟨r, s₂, rfl, hsteps, hs₂⟩ | ⟨fault, hfault⟩
    · rw [hunary, hs₂] at hstep
      cases hstep
      exact ⟨r, s₁, hrun, hsteps⟩
    · rw [hunary, hfault] at hstep
      cases hstep
  · rintro ⟨r, s₁, hrun, hsteps⟩
    obtain ⟨w, hunary⟩ := exists_unary_eq hop h (.reference r) s₁
    refine ⟨w, ?_⟩
    rw [bind_of_ok hrun, hunary, step_of_stepsTo hsteps]
    rfl

/-- Both forms fail without a change of a slot. -/
theorem keepsOld_of_step_thrown (hx : x.IsPath) (hop : UnaryOp.Steps pre post delta)
    (h : op = pre ∨ op = post) (span : Span) {e : Exception} {s' : State}
    (hthrown : evaluate (n + 1) (.unary span op x) s = .thrown e s') : s.KeepsOld s' := by
  have hend := evaluate_path hx n s
  rw [evaluate_unary] at hthrown
  cases hrun : evaluate n x s with
  | ok v s₁ =>
    rw [hrun] at hend
    obtain ⟨r, rfl, hleads⟩ := hend
    obtain ⟨w, hunary⟩ := exists_unary_eq hop h (.reference r) s₁
    rw [bind_of_ok hrun, hunary] at hthrown
    rcases step_cases (.reference r) delta s₁ with ⟨_, s₂, -, -, hs₂⟩ | ⟨fault, hfault⟩
    · rw [hs₂] at hthrown
      cases hthrown
    · rw [hfault] at hthrown
      cases hthrown
      exact hleads.keeps.trans (s₁.keepsOld_newException _ _)
  | thrown e' s₁ =>
    rw [bind_of_thrown hrun] at hthrown
    cases hthrown
    rw [hrun] at hend
    exact hend
  | outOfFuel =>
    change andThen (evaluate n x) _ s = _ at hthrown
    rw [andThen, hrun] at hthrown
    cases hthrown
  | needsFile path =>
    rw [hrun] at hend
    exact hend.elim

/-- What a step that succeeds has done to the slots. -/
theorem slots_of_stepsTo (hx : x.IsPath) (hslots : s.HasSlots) {r : Reference} {s₁ s' : State}
    (hrun : evaluate n x s = .ok (.reference r) s₁) (h : s₁.StepsTo r delta s') :
    (∃ k m : Int64, toInt (s₁.read r) s₁ = .ok k s₁ ∧
      s'.slot r.slot = { s₁.slot r.slot with value := .int m } ∧
      m.toInt = (k.toInt + delta.toInt).bmod Int64.size) ∧
      (∀ i, i ≠ r.slot → s'.slot i = s₁.slot i) ∧
      ∀ i, i ≠ r.slot → i.index < s.slots.size → s'.slot i = s.slot i := by
  have hend := evaluate_path hx n s
  rw [hrun] at hend
  obtain ⟨r', hr, hleads⟩ := hend
  cases hr
  obtain ⟨-, k, hk, rfl⟩ := h
  have hother (i : SlotId) (hi : i ≠ r.slot) :
      (s₁.writeSlot r.slot (.int (k + delta))).slot i = s₁.slot i := by
    rw [State.slot_writeSlot, if_neg fun h => hi h.1]
  refine ⟨⟨k, k + delta, hk, ?_, Int64.toInt_add ..⟩, hother, ?_⟩
  · rw [State.slot_writeSlot, if_pos ⟨rfl, hleads.exists_slot hslots⟩]
  · intro i hi hsize
    rw [hother i hi, hleads.keeps.slot i hsize]

end

end Eval

open Eval in
/-- What a pair of operators does to an operand: the one behind it gives the old value, and otherwise
does the same; both fail without a change of a slot; both succeed exactly if the slot of the operand can
be stepped; and then only that slot is changed. -/
structure Eval.StepsAtomically (n : Nat) (x : Expr) (s : State) (pre post : UnaryOp)
    (delta : Int64) : Prop where
  old : ∀ span v s₁, evaluate n x s = .ok v s₁ →
    evaluate (n + 1) (.unary span post x) s =
      (evaluate (n + 1) (.unary span pre x) s).giving (s₁.deref v)
  failed : ∀ span, (∀ v s₁, evaluate n x s ≠ .ok v s₁) →
    evaluate (n + 1) (.unary span post x) s = evaluate (n + 1) (.unary span pre x) s
  unchanged : ∀ span op e s', op = pre ∨ op = post →
    evaluate (n + 1) (.unary span op x) s = .thrown e s' → s.KeepsOld s'
  succeeds_iff : ∀ span op s', op = pre ∨ op = post →
    ((∃ w, evaluate (n + 1) (.unary span op x) s = .ok w s') ↔
      ∃ r s₁, evaluate n x s = .ok (.reference r) s₁ ∧ s₁.StepsTo r delta s')
  changed : ∀ r s₁ s', evaluate n x s = .ok (.reference r) s₁ → s₁.StepsTo r delta s' →
    (∃ k m : Int64, toInt (s₁.read r) s₁ = .ok k s₁ ∧
      s'.slot r.slot = { s₁.slot r.slot with value := .int m } ∧
      m.toInt = (k.toInt + delta.toInt).bmod Int64.size) ∧
    (∀ i, i ≠ r.slot → s'.slot i = s₁.slot i) ∧
    ∀ i, i ≠ r.slot → i.index < s.slots.size → s'.slot i = s.slot i

open Eval in
/-- The operators in front of a path agree with the assignments of the next integer, and all four are
atomic. -/
theorem steps_agree_with_assignments {s : State} {x : Expr} (hs : s.Ranked) (hslots : s.HasSlots)
    (hx : x.IsPath) (n : Nat) (span span' span'' : Span) :
    evaluate (n + 1) (.unary span .preDecrement x) s =
        evaluate (n + 1) (.assign span' .subtract x (.integer span'' 1)) s ∧
      ((∀ r s₁, evaluate n x s = .ok (.reference r) s₁ → ∃ k, toInt (s₁.read r) s₁ = .ok k s₁) →
        evaluate (n + 1) (.unary span .preIncrement x) s =
          evaluate (n + 1) (.assign span' .add x (.integer span'' 1)) s) ∧
      StepsAtomically n x s .preIncrement .postIncrement 1 ∧
      StepsAtomically n x s .preDecrement .postDecrement (-1) := by
  have hatomic {pre post : UnaryOp} {delta : Int64} (hop : UnaryOp.Steps pre post delta) :
      StepsAtomically n x s pre post delta := {
    old := fun span _ _ hrun => evaluate_post hop span hrun
    failed := fun span hnot => evaluate_post_of_not_ok span hnot
    unchanged := fun span _ _ _ h hthrown => keepsOld_of_step_thrown hx hop h span hthrown
    succeeds_iff := fun span _ s' h => evaluate_step_ok_iff hop h span s'
    changed := fun _ _ _ hrun hsteps => slots_of_stepsTo hx hslots hrun hsteps }
  refine ⟨preDecrement_eq hx hs _ _ _, ?_, hatomic .increment, hatomic .decrement⟩
  intro hint
  exact preIncrement_eq hx hs hint _ _ _

/-- A new interpreter in which the global name `n` is the largest integer. -/
def State.atLimit : State :=
  (State.initial default).defineGlobal "n" (.int Int64.maxValue)

/-- In `n++` the largest integer is followed by the smallest one, and the expression gives the value
from before; `++n` and `n += 1` do the same and give the reference. -/
theorem steps_agree_at_limit :
    Eval.evaluate 2 (.unary {} .preIncrement (.identifier {} "n")) State.atLimit =
        Eval.evaluate 2 (.assign {} .add (.identifier {} "n") (.integer {} 1)) State.atLimit ∧
      Eval.evaluate 2 (.unary {} .postIncrement (.identifier {} "n")) State.atLimit =
        (Eval.evaluate 2 (.unary {} .preIncrement (.identifier {} "n")) State.atLimit).giving
          (.int Int64.maxValue) ∧
      ∃ r s', Eval.evaluate 2 (.unary {} .preIncrement (.identifier {} "n")) State.atLimit =
          .ok (.reference r) s' ∧ (s'.slot r.slot).value = .int Int64.minValue := by
  have hranked : State.atLimit.Ranked :=
    (State.ranked_install none none default).allocate (State.knows_of_not_reference _ rfl) _ _ _
  have hslots : State.atLimit.HasSlots :=
    (State.hasSlots_install none none default).allocate _ _ _ _
  have hrun : Eval.evaluate 1 (.identifier {} "n") State.atLimit =
      .ok (.reference (State.atLimit.resolve "n").1) State.atLimit := rfl
  have hread : State.atLimit.read (State.atLimit.resolve "n").1 = .int Int64.maxValue := by
    decide +kernel
  have h := steps_agree_with_assignments hranked hslots (.identifier {} "n") 1 {} {} {}
  refine ⟨h.2.1 ?_, ?_, ?_⟩
  · intro r s₁ hr
    rw [hrun] at hr
    cases hr
    rw [hread]
    exact ⟨Int64.maxValue, rfl⟩
  · have hold : State.atLimit.deref (.reference (State.atLimit.resolve "n").1) =
        .int Int64.maxValue := by decide +kernel
    rw [h.2.2.1.old {} _ _ hrun, hold]
  · exact ⟨_, _, rfl, by decide +kernel⟩

end Scripting
