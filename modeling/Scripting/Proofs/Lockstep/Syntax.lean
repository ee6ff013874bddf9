import Scripting.Proofs.Lockstep.Operation

/-!
The rules for expressions and statements keep two runs in lockstep, if the evaluations of what lies
inside do.
-/

namespace Scripting

namespace Item

variable {q q' : Stmt → Stmt → Prop} {items items' : List Item}

theorem Pairs.imp {item item' : Item} (h : item.Pairs q item')
    (hq : ∀ {s s' : Stmt}, q s s' → q' s s') : item.Pairs q' item' :=
  ⟨h.label, h.declares, hq h.statement⟩

theorem needsScope_eq (h : List.Forall₂ (Pairs q) items items') :
    needsScope items = needsScope items' := by
  induction h with
  | nil => rfl
  | cons hitem _ ih =>
    rw [needsScope, needsScope, List.any_cons, List.any_cons, hitem.declares]
    exact congrArg _ ih

/-- Two sections end at the same label. -/
theorem pairs_takeWhile (h : List.Forall₂ (Pairs q) items items') :
    List.Forall₂ (Pairs q) (items.takeWhile (·.label.isNone))
      (items'.takeWhile (·.label.isNone)) := by
  induction h with
  | nil => exact .nil
  | @cons item item' _ _ hitem _ ih =>
    simp only [List.takeWhile_cons, ← hitem.label]
    cases item.label with
    | none => exact .cons hitem ih
    | some label => exact .nil

end Item

namespace Lockstep

variable {items items' : List Item}

theorem Interprets.executeAll {R : Lockstep} {i i' : Interp} (I : R.Interprets i i')
    (h : List.Forall₂ (Item.Pairs R.stmt) items items') :
    List.Forall₂ (Item.Pairs (R.Executes i i')) items items' :=
  h.imp fun _ _ hitem => hitem.imp I.execute

namespace Core

variable {R : Lockstep} {σ : Duo} {i i' : Interp} (L : R.Core)
include L

/-! Expressions. -/

theorem special (value : Special) (hs : R.inv σ) :
    R.Keeps σ (Alike R.stored) (Eval.special value) (Eval.special value) := by
  cases value with
  | this =>
    apply Keeps.look (L.this hs)
    exact L.give hs (L.stored_this hs)
  | global =>
    apply Keeps.look (L.global hs)
    exact L.give hs (L.stored_global hs)
  | _ => exact L.give hs (L.literal σ trivial)

section

variable (I : R.Evaluates i i')
include I

theorem arguments {args args' : List Expr} (hargs : List.Forall₂ R.expr args args')
    (hs : R.inv σ) :
    R.Keeps σ (Alike fun τ vs => ∀ v ∈ vs, R.stored τ v) (Eval.arguments i args)
      (Eval.arguments i' args') := by
  induction hargs generalizing σ with
  | nil => exact L.give hs (by simp)
  | cons he _ ih =>
    unfold Eval.arguments
    apply L.bind (I.evaluate he hs)
    intro v v' τ hτ _ hv
    apply L.derefs hτ hv
    intro d hd
    apply L.next (L.holding hτ (.value (L.good_of_stored hd)) (fun υ hυ _ => ih hυ) ?_)
    · intro vs υ hυ hl hvs
      apply L.give hυ
      intro w hw
      rcases List.mem_cons.1 hw with rfl | hw
      · exact L.stored_mono hl hd
      · exact hvs w hw
    · rintro τ υ vs _ hl ⟨rfl, hvs⟩
      exact ⟨rfl, fun v hv => L.stored_mono hl (hvs v hv)⟩

/-- Arguments are evaluated while something is held. -/
theorem heldArguments {nodes nodes' : List Node} {args args' : List Expr}
    (hargs : List.Forall₂ R.expr args args') (hs : R.inv σ)
    (hnodes : R.Handed σ nodes nodes') :
    R.Keeps σ (Alike fun τ vs => ∀ v ∈ vs, R.stored τ v)
      (Eval.holding nodes (Eval.arguments i args))
      (Eval.holding nodes' (Eval.arguments i' args')) := by
  apply L.holding hs hnodes (fun τ hτ _ => L.arguments I hargs hτ)
  rintro τ υ vs _ hl ⟨rfl, hvs⟩
  exact ⟨rfl, fun v hv => L.stored_mono hl (hvs v hv)⟩

/-- An expression is evaluated while something is held. -/
theorem heldEvaluate {nodes nodes' : List Node} {e e' : Expr} (he : R.expr e e') (hs : R.inv σ)
    (hnodes : R.Handed σ nodes nodes') :
    R.Keeps σ R.good (Eval.holding nodes (i.evaluate e)) (Eval.holding nodes' (i'.evaluate e')) :=
  L.holding hs hnodes (fun _ hτ _ => I.evaluate he hτ) fun _ _ _ _ => L.good_mono

theorem binaryExpr {left left' right right' : Expr} (op : BinaryOp) (hleft : R.expr left left')
    (hright : R.expr right right') (hs : R.inv σ) :
    R.Keeps σ (Alike R.stored) (Eval.binaryExpr i op left right)
      (Eval.binaryExpr i' op left' right') := by
  have decided : ∀ τ, R.inv τ → R.Keeps τ (Alike R.stored) (do
      let rhs ← i.evaluate right
      Pure.pure (.bool (← Eval.truth rhs))) (do
      let rhs ← i'.evaluate right'
      Pure.pure (.bool (← Eval.truth rhs))) := by
    intro τ hτ
    apply L.bind (I.evaluate hright hτ)
    intro rhs rhs' υ hυ _ hrhs
    apply L.truths hυ hrhs
    intro b
    exact L.give hυ (L.literal υ trivial)
  unfold Eval.binaryExpr
  apply L.bind (I.evaluate hleft hs)
  intro lhs lhs' τ hτ _ hlhs
  have combined : R.Keeps τ (Alike R.stored) (do
      let rhs ← Eval.holding lhs.nodes (i.evaluate right)
      Eval.binary op lhs rhs) (do
      let rhs ← Eval.holding lhs'.nodes (i'.evaluate right')
      Eval.binary op lhs' rhs) := by
    apply L.bind (L.heldEvaluate I hright hτ (.value hlhs))
    intro rhs rhs' υ hυ hl hrhs
    exact L.binary hυ (L.good_mono hl hlhs) hrhs op
  cases op with
  | and =>
    apply L.truths hτ hlhs
    intro b
    cases b with
    | true => exact decided τ hτ
    | false => exact L.give hτ (L.literal τ trivial)
  | or =>
    apply L.truths hτ hlhs
    intro b
    cases b with
    | true => exact L.give hτ (L.literal τ trivial)
    | false => exact decided τ hτ
  | _ => exact combined

theorem assignExpr {target target' value value' : Expr} (op : AssignOp)
    (htarget : R.expr target target') (hvalue : R.expr value value') (hs : R.inv σ) :
    R.Keeps σ R.good (Eval.assignExpr i op target value) (Eval.assignExpr i' op target' value') := by
  unfold Eval.assignExpr
  apply L.bind (I.evaluate htarget hs)
  intro old old' τ hτ _ hold
  apply L.bind (L.toWritableReference hτ hold)
  intro r r' υ hυ hl hr
  have holdυ := L.good_mono hl hold
  apply L.bind (L.heldEvaluate I hvalue hυ (.value holdυ))
  intro rhs rhs' φ hφ hl' hrhs
  apply L.bind (L.combine hφ (L.good_mono hl' holdυ) hrhs op)
  intro new new' χ hχ hl'' hnew
  have hrχ := L.good_mono hl'' (L.good_mono hl' hr)
  apply L.bind (L.assign hχ hrχ hnew)
  intro _ _ ψ hψ hlψ _
  exact L.pure hψ (L.good_mono hlψ hrχ)

theorem constructExpr {callee callee' : Expr} {args args' : List Expr}
    (hcallee : R.expr callee callee') (hargs : List.Forall₂ R.expr args args') (hs : R.inv σ) :
    R.Keeps σ R.good (Eval.constructExpr i callee args) (Eval.constructExpr i' callee' args') := by
  unfold Eval.constructExpr
  apply L.bind (I.evaluate hcallee hs)
  intro v v' τ hτ _ hv
  apply L.next (L.toObject hτ hv)
  intro wrapper υ hυ _ hwrapper
  apply L.bind (L.peekAt Eval.constructorName hυ hwrapper)
  intro found found' φ hφ hl hfound
  cases hfound with
  | none =>
    apply Keeps.look (L.typeName hφ (L.stored_mono hl hwrapper))
    exact L.fail _ hφ
  | some hslot =>
    apply L.next (L.heldArguments I hargs hφ (.value hslot))
    intro values χ hχ hl' hvalues
    exact I.call hχ (L.good_mono hl' hslot) hvalues

theorem subscriptExpr {object object' index index' : Expr} (hobject : R.expr object object')
    (hindex : R.expr index index') (hs : R.inv σ) (span span' : Span) :
    R.Keeps σ R.good (Eval.evaluateStep i (.subscript span object index))
      (Eval.evaluateStep i' (.subscript span' object' index')) := by
  apply L.bind (I.evaluate hobject hs)
  intro v v' τ hτ _ hv
  apply L.next (L.toObject hτ hv)
  intro o υ hυ _ ho
  apply L.bind (L.heldEvaluate I hindex hυ (.value (L.good_of_stored ho)))
  intro key key' φ hφ hl hkey
  apply L.derefs hφ hkey
  intro d hd
  have hoφ := L.stored_mono hl ho
  apply L.holding hφ (.append (.value (L.good_of_stored hoφ)) (.value (L.good_of_stored hd)))
  · intro χ hχ hl'
    exact L.operatorSubscript hχ (L.stored_mono hl' hoφ) (L.stored_mono hl' hd)
  · exact fun _ _ _ _ => L.good_mono

theorem evaluateStep {e e' : Expr} (he : R.expr e e') (hs : R.inv σ) :
    R.Keeps σ R.good (Eval.evaluateStep i e) (Eval.evaluateStep i' e') := by
  cases L.expr_pairs he with
  | integer n => exact L.pure hs (L.good_of_stored (L.literal σ trivial))
  | string text => exact L.given (L.newStringValue text hs)
  | identifier name =>
    apply L.bind (L.resolve name hs)
    intro r r' τ hτ _ hr
    exact L.pure hτ hr
  | special value => exact L.given (L.special value hs)
  | member name hobject =>
    apply L.bind (I.evaluate hobject hs)
    intro v v' τ hτ _ hv
    apply L.next (L.toObject hτ hv)
    intro o υ hυ _ ho
    apply L.bind (L.memberOf name hυ ho)
    intro r r' φ hφ _ hr
    exact L.pure hφ hr
  | call hcallee hargs =>
    apply L.bind (I.evaluate hcallee hs)
    intro f f' τ hτ _ hf
    apply L.next (L.heldArguments I hargs hτ (.value hf))
    intro values υ hυ hl hvalues
    exact I.call hυ (L.good_mono hl hf) hvalues
  | subscript hobject hindex => exact L.subscriptExpr I hobject hindex hs _ _
  | construct hcallee hargs => exact L.constructExpr I hcallee hargs hs
  | unary op hoperand =>
    apply L.bind (I.evaluate hoperand hs)
    intro v v' τ hτ _ hv
    exact L.unary hτ hv op
  | binary op hleft hright => exact L.given (L.binaryExpr I op hleft hright hs)
  | assign op htarget hvalue => exact L.assignExpr I op htarget hvalue hs
  | function hf =>
    apply L.next (L.newScript hs hf (L.expr_code he))
    intro o τ hτ _ ho
    exact L.pure hτ (L.good_of_stored ho)
  | error errors errors' => exact L.fail _ hs

end

/-! Statements. -/

theorem ended_mono {σ τ : Duo} {c c' : Completion} (hl : R.leads σ τ) (h : R.Ended σ c c') :
    R.Ended τ c c' := by
  cases h with
  | normal h => exact .normal (L.good_mono hl h)
  | returned h => exact .returned (L.stored_mono hl h)
  | broken => exact .broken
  | continued => exact .continued

theorem ended_pop {σ : Duo} {c c' : Completion} (h : R.Ended σ c c') :
    R.Ended (σ.map State.popFrame) c c' := by
  cases h with
  | normal h => exact .normal (L.good_pop h)
  | returned h => exact .returned (L.stored_pop h)
  | broken => exact .broken
  | continued => exact .continued

theorem good_undefined (σ : Duo) : R.good σ .undefined .undefined :=
  L.good_of_stored (L.literal σ trivial)

/-- A statement is executed while a value is held. -/
theorem heldExecute {v v' : Value} {statement statement' : Stmt}
    (hstatement : R.Executes i i' statement statement') (hs : R.inv σ) (hv : R.good σ v v') :
    R.Keeps σ R.Ended (Eval.holding v.nodes (i.execute statement))
      (Eval.holding v'.nodes (i'.execute statement')) :=
  L.holding hs (.value hv) (fun τ hτ _ => hstatement τ hτ) fun _ _ _ _ => L.ended_mono

theorem runItems {last last' : Value}
    (hitems : List.Forall₂ (Item.Pairs (R.Executes i i')) items items') (hs : R.inv σ)
    (hlast : R.good σ last last') :
    R.Keeps σ R.Ended (Eval.runItems i last items) (Eval.runItems i' last' items') := by
  induction hitems generalizing σ last last' with
  | nil => exact L.pure hs (.normal hlast)
  | cons hitem _ ih =>
    unfold Eval.runItems
    apply L.bind (L.heldExecute hitem.statement hs hlast)
    intro c c' τ hτ _ hc
    cases hc with
    | normal hv => exact ih hτ hv
    | returned hv => exact L.pure hτ (.returned hv)
    | broken => exact L.pure hτ .broken
    | continued => exact L.pure hτ .continued

theorem inScope {own : Bool} {m m' : Eval Completion} (hs : R.inv σ)
    (hm : ∀ τ, R.inv τ → (∀ v, R.stored σ v → R.stored τ v) → R.Keeps τ R.Ended m m') :
    R.Keeps σ R.Ended (Eval.inScope own m) (Eval.inScope own m') := by
  cases own with
  | true =>
    have hp := L.pushBlock hs
    exact L.inFrame hp (hm _ hp.inv hp.stored) fun _ _ _ => L.ended_pop
  | false => exact hm σ hs fun _ h => h

theorem runBlock
    (hitems : List.Forall₂ (Item.Pairs (R.Executes i i')) items items') (hs : R.inv σ) :
    R.Keeps σ R.Ended (Eval.runBlock i items) (Eval.runBlock i' items') := by
  unfold Eval.runBlock
  rw [← Item.needsScope_eq hitems]
  exact L.inScope hs fun τ hτ _ => L.runItems hitems hτ (L.good_undefined τ)

theorem ended_afterBody {c c' : Completion} (h : R.Ended σ c c') :
    Option.Rel (R.Ended σ) (Eval.afterBody c) (Eval.afterBody c') := by
  cases h with
  | normal _ => exact .none
  | continued => exact .none
  | broken => exact .some (.normal (L.good_undefined σ))
  | returned h => exact .some (.returned h)

theorem forStart {init init' : Option Stmt} (hinit : Option.Rel (R.Executes i i') init init')
    (hs : R.inv σ) :
    R.Keeps σ (fun _ _ _ => True) (Eval.forStart i init) (Eval.forStart i' init') := by
  cases hinit with
  | none => exact L.pure hs trivial
  | some hclause =>
    apply L.bind (hclause σ hs)
    intro c c' τ hτ _ _
    exact L.pure hτ trivial

section

variable (I : R.Evaluates i i')
include I

theorem whileTurn {condition condition' : Expr} {body body' : Stmt}
    (hcondition : R.expr condition condition') (hbody : R.Executes i i' body body') (hs : R.inv σ) :
    R.Keeps σ (fun τ => Option.Rel (R.Ended τ)) (Eval.whileTurn i condition body)
      (Eval.whileTurn i' condition' body') := by
  unfold Eval.whileTurn
  apply L.bind (I.evaluate hcondition hs)
  intro test test' τ hτ _ htest
  apply L.truths hτ htest
  intro b
  cases b with
  | true =>
    apply L.bind (hbody τ hτ)
    intro c c' υ hυ _ hc
    exact L.pure hυ (L.ended_afterBody hc)
  | false => exact L.pure hτ (.some (.normal (L.good_undefined τ)))

theorem forTest {condition condition' : Option Expr}
    (hcondition : Option.Rel R.expr condition condition') (hs : R.inv σ) :
    R.Keeps σ (Alike fun _ _ => True) (Eval.forTest i condition) (Eval.forTest i' condition') := by
  cases hcondition with
  | none => exact L.give hs trivial
  | some he =>
    apply L.bind (I.evaluate he hs)
    intro test test' τ hτ _ htest
    exact .ok hτ (L.refl τ) ⟨L.truth hτ htest, trivial⟩

theorem forUpdate {update update' : Option Expr} (hupdate : Option.Rel R.expr update update')
    (hs : R.inv σ) :
    R.Keeps σ (fun _ _ _ => True) (Eval.forUpdate i update) (Eval.forUpdate i' update') := by
  cases hupdate with
  | none => exact L.pure hs trivial
  | some he =>
    apply L.bind (I.evaluate he hs)
    intro v v' τ hτ _ _
    exact L.pure hτ trivial

theorem forTurn {condition condition' update update' : Option Expr} {body body' : Stmt}
    (hcondition : Option.Rel R.expr condition condition')
    (hupdate : Option.Rel R.expr update update') (hbody : R.Executes i i' body body')
    (hs : R.inv σ) :
    R.Keeps σ (fun τ => Option.Rel (R.Ended τ)) (Eval.forTurn i condition update body)
      (Eval.forTurn i' condition' update' body') := by
  unfold Eval.forTurn
  apply L.next (L.forTest I hcondition hs)
  intro test τ hτ _ _
  cases test with
  | true =>
    apply L.bind (hbody τ hτ)
    intro c c' υ hυ _ hc
    have hafter := L.ended_afterBody hc
    generalize Eval.afterBody c = r at hafter
    generalize Eval.afterBody c' = r' at hafter
    cases hafter with
    | some hc => exact L.pure hυ (.some hc)
    | none =>
      apply L.bind (L.forUpdate I hupdate hυ)
      intro _ _ φ hφ _ _
      exact L.pure hφ .none
  | false => exact L.pure hτ (.some (.normal (L.good_undefined τ)))

/-- A `for` loop in its own scope. -/
theorem forLoop {init init' : Option Stmt} {condition condition' update update' : Option Expr}
    {body body' : Stmt} (hinit : Option.Rel (R.Executes i i') init init')
    (hcondition : Option.Rel R.expr condition condition')
    (hupdate : Option.Rel R.expr update update') (hbody : R.Executes i i' body body')
    (hs : R.inv σ) :
    R.Keeps σ R.Ended
      (do
        Eval.forStart i init
        Eval.repeatUntil (Eval.forTurn i condition update body) i.fuel)
      (do
        Eval.forStart i' init'
        Eval.repeatUntil (Eval.forTurn i' condition' update' body') i'.fuel) := by
  rw [← I.fuel]
  apply L.bind (L.forStart hinit hs)
  intro _ _ τ hτ _ _
  exact L.repeatUntil (fun υ hυ => L.forTurn I hcondition hupdate hbody hυ) _ hτ

theorem optionalValue {e e' : Option Expr} (he : Option.Rel R.expr e e') (hs : R.inv σ) :
    R.Keeps σ (Alike R.stored) (Eval.optionalValue i e) (Eval.optionalValue i' e') := by
  cases he with
  | none => exact L.give hs (L.literal σ trivial)
  | some he =>
    apply L.bind (I.evaluate he hs)
    intro v v' τ hτ _ hv
    exact .ok hτ (L.refl τ) ⟨L.deref hτ hv, L.stored_deref hτ hv⟩

end

/-- Both runs start a `switch` at corresponding items. -/
theorem selectSection {q : Stmt → Stmt → Prop} {subject : Value}
    {fallback fallback' : Option (List Item)} (hitems : List.Forall₂ (Item.Pairs q) items items')
    (hfallback : Option.Rel (List.Forall₂ (Item.Pairs q)) fallback fallback') (hs : R.inv σ)
    (hsubject : R.stored σ subject) :
    R.Keeps σ (fun _ => Option.Rel (List.Forall₂ (Item.Pairs q)))
      (Eval.selectSection subject fallback items) (Eval.selectSection subject fallback' items') := by
  induction hitems generalizing σ fallback fallback' with
  | nil => exact L.pure hs hfallback
  | @cons item item' rest rest' hitem hrest ih =>
    unfold Eval.selectSection
    rw [← hitem.label]
    cases item.label with
    | none => exact ih hfallback hs hsubject
    | some label =>
      cases label with
      | value n =>
        have hn : R.good σ (.int n) (.int n) := L.good_of_stored (L.literal σ trivial)
        apply L.next (L.compare hs (L.good_of_stored hsubject) hn)
        intro c τ hτ hl _
        by_cases hc : c = .equal
        · simp only [hc, if_true]
          exact L.pure hτ (.some (.cons hitem hrest))
        · simp only [hc, if_false]
          exact ih hfallback hτ (L.stored_mono hl hsubject)
      | default =>
        refine ih ?_ hs hsubject
        cases hfallback with
        | none => exact .some (.cons hitem hrest)
        | some hfirst => exact .some hfirst

theorem runSection {last last' : Value}
    (hitems : List.Forall₂ (Item.Pairs (R.Executes i i')) items items') (hs : R.inv σ)
    (hlast : R.good σ last last') :
    R.Keeps σ R.Ended (Eval.runSection i last items) (Eval.runSection i' last' items') := by
  induction hitems generalizing σ last last' with
  | nil => exact L.pure hs (.normal hlast)
  | cons hitem _ ih =>
    unfold Eval.runSection
    apply L.bind (L.heldExecute hitem.statement hs hlast)
    intro c c' τ hτ hl hc
    cases hc with
    | normal hv => exact ih hτ hv
    | broken => exact L.pure hτ (.normal (L.good_mono hl hlast))
    | returned hv => exact L.pure hτ (.returned hv)
    | continued => exact L.pure hτ .continued

theorem runSwitch {subject : Value}
    (hitems : List.Forall₂ (Item.Pairs (R.Executes i i')) items items') (hs : R.inv σ)
    (hsubject : R.stored σ subject) :
    R.Keeps σ R.Ended (Eval.runSwitch i subject items) (Eval.runSwitch i' subject items') := by
  unfold Eval.runSwitch
  apply L.bind (L.selectSection hitems .none hs hsubject)
  intro chosen chosen' τ hτ _ hchosen
  cases hchosen with
  | none => exact L.pure hτ (.normal (L.good_undefined τ))
  | some hchosen =>
    cases hchosen with
    | nil => exact L.pure hτ (.normal (L.good_undefined τ))
    | cons hitem hrest =>
      exact L.runSection (.cons hitem (Item.pairs_takeWhile hrest)) hτ (L.good_undefined τ)

end Core

namespace Inner

variable {R : Lockstep} {σ : Duo} {i i' : Interp} (L : R.Inner)
include L

/-- A thrown value is bound to a name, and then the handler runs. -/
theorem bindThrown {e : Exception} {handler handler' : Stmt} (binding : String)
    (hhandler : R.Executes i i' handler handler') (hs : R.inv σ) (he : R.stored σ e.value) :
    R.Keeps σ R.Ended
      (do
        let _ ← Eval.update fun s => s.allocate s.currentScope binding e.value false
        i.execute handler)
      (do
        let _ ← Eval.update fun s => s.allocate s.currentScope binding e.value false
        i'.execute handler') := by
  have hbind := L.declare binding false hs he
  apply L.update hbind
  exact hhandler _ hbind.inv

theorem handle {e : Exception} {handler handler' : Stmt} (binding : String)
    (hhandler : R.Executes i i' handler handler') (hs : R.inv σ) (he : R.raised σ e) :
    R.Keeps σ R.Ended (Eval.handle i binding handler e) (Eval.handle i' binding handler' e) := by
  have hp := L.pushBlock hs
  have hvalue := hp.stored _ (L.raised_value he)
  exact L.inFrame hp (L.bindThrown binding hhandler hp.inv hvalue) fun _ _ _ => L.ended_pop

theorem executeStep {statement statement' : Stmt} (I : R.Interprets i i')
    (hstatement : R.stmt statement statement') (hs : R.inv σ) :
    R.Keeps σ R.Ended (Eval.executeStep i statement) (Eval.executeStep i' statement') := by
  have hundefined := fun τ => Ended.normal (L.good_undefined τ)
  cases L.stmt_pairs hstatement with
  | expression he =>
    apply L.bind (I.evaluate he hs)
    intro v v' τ hτ _ hv
    exact L.pure hτ (.normal hv)
  | block hitems => exact L.runBlock (I.executeAll hitems) hs
  | ifElse hcondition hthen hother =>
    apply L.bind (I.evaluate hcondition hs)
    intro test test' τ hτ _ htest
    apply L.truths hτ htest
    intro b
    cases b with
    | true => exact I.execute hthen τ hτ
    | false =>
      cases hother with
      | some hother => exact I.execute hother τ hτ
      | none => exact L.pure hτ (hundefined τ)
  | whileLoop hcondition hbody =>
    unfold Eval.executeStep
    rw [← I.fuel]
    exact L.repeatUntil (fun τ hτ => L.whileTurn I.toEvaluates hcondition (I.execute hbody) hτ) _ hs
  | forLoop hinit hcondition hupdate hbody =>
    have hp := L.pushBlock hs
    refine L.inFrame hp ?_ fun _ _ _ => L.ended_pop
    refine L.forLoop I.toEvaluates ?_ hcondition hupdate (I.execute hbody) hp.inv
    cases hinit with
    | none => exact .none
    | some hclause => exact .some (I.execute hclause)
  | switch hsubject hitems =>
    apply L.bind (I.evaluate hsubject hs)
    intro v v' τ hτ _ hv
    apply L.derefs hτ hv
    intro d hd
    refine L.holding hτ (.value (L.good_of_stored hd)) ?_ fun _ _ _ _ => L.ended_mono
    intro υ hυ hl
    rw [← Item.needsScope_eq hitems]
    apply L.inScope hυ
    intro φ hφ hstored
    exact L.runSwitch (I.executeAll hitems) hφ (hstored d (L.stored_mono hl hd))
  | tryCatch binding hbody hhandler =>
    apply L.bind (I.execute hbody σ hs).attempt
    intro r r' τ hτ _ hr
    cases hr with
    | ok hc => exact L.pure hτ hc
    | error he => exact L.handle binding (I.execute hhandler) hτ he
  | throwValue he =>
    apply L.bind (I.evaluate he hs)
    intro v v' τ hτ _ hv
    exact L.throwValue hτ hv
  | returnValue he =>
    apply L.next (L.optionalValue I.toEvaluates he hs)
    intro v τ hτ _ hv
    exact L.pure hτ (.returned hv)
  | breakLoop => exact L.pure hs .broken
  | continueLoop => exact L.pure hs .continued
  | declare kind name he =>
    apply L.next (L.optionalValue I.toEvaluates he hs)
    intro v τ hτ _ hv
    have hbind := L.declare name (kind = .constDecl) hτ hv
    apply L.update hbind
    exact L.pure hbind.inv (hundefined _)
  | @function _ _ f _ hf =>
    apply L.next (L.newScript hs hf (L.stmt_code hstatement))
    intro o τ hτ _ ho
    rw [← hf.name]
    cases f.name with
    | none => exact L.pure hτ (hundefined τ)
    | some name =>
      have hbind := L.declare name false hτ ho
      apply L.update hbind
      exact L.pure hbind.inv (hundefined _)
  | error errors errors' => exact L.fail _ hs

end Inner

end Lockstep

end Scripting
