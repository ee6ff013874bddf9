import Scripting.Proofs.Lockstep.Change

/-!
Conversions and operators keep two runs in lockstep.
-/

namespace Scripting.Lockstep.Core

variable {R : Lockstep} {σ : Duo} (L : R.Core) {v v' : Value} {o : ObjectId} {args : List Value}
include L

/-- A value that both runs may store may be given by an expression. -/
theorem given {m m' : Eval Value} (h : R.Keeps σ (Alike R.stored) m m') : R.Keeps σ R.good m m' :=
  h.of_alike fun _ _ => L.good_of_stored

/-- The value behind two related values is looked at in both runs. -/
theorem derefs {β β' : Type} {Q : Duo → β → β' → Prop} {f : Value → Eval β} {f' : Value → Eval β'}
    (hs : R.inv σ) (hv : R.good σ v v') (hf : ∀ d, R.stored σ d → R.Keeps σ Q (f d) (f' d)) :
    R.Keeps σ Q (Eval.deref v >>= f) (Eval.deref v' >>= f') := by
  change R.Keeps σ Q (f (σ.left.deref v)) (f' (σ.right.deref v'))
  rw [← L.deref hs hv]
  exact hf _ (L.stored_deref hs hv)

theorem truths {β β' : Type} {Q : Duo → β → β' → Prop} {f : Bool → Eval β} {f' : Bool → Eval β'}
    (hs : R.inv σ) (hv : R.good σ v v') (hf : ∀ b, R.Keeps σ Q (f b) (f' b)) :
    R.Keeps σ Q (Eval.truth v >>= f) (Eval.truth v' >>= f') := by
  change R.Keeps σ Q (f (σ.left.truth v)) (f' (σ.right.truth v'))
  rw [← L.truth hs hv]
  exact hf _

theorem toPrimitive (hint : ValueType) (hs : R.inv σ) (ho : R.stored σ (.object o)) :
    R.Keeps σ (Alike R.stored) (Eval.toPrimitive o hint) (Eval.toPrimitive o hint) := by
  unfold Eval.toPrimitive
  apply Keeps.look (L.typeName hs ho)
  apply Keeps.look (L.behavior? hs ho)
  cases σ.left.behavior? o with
  | none => exact L.fail _ hs
  | some behavior =>
    cases behavior with
    | string =>
      apply Keeps.look (L.objectString hs ho)
      cases hint with
      | int =>
        dsimp only
        cases Eval.textToInt? (σ.left.object o).text with
        | some n => exact L.give hs (L.literal σ trivial)
        | none => exact L.fail _ hs
      | _ => exact L.fail _ hs
    | tally =>
      apply Keeps.look (L.hostInt? hs ho)
      cases hint with
      | int =>
        cases (σ.left.object o).hostInt? with
        | some n => exact L.give hs (L.literal σ trivial)
        | none => exact L.fail _ hs
      | _ => exact L.fail _ hs
    | echo => exact L.give hs (L.literal σ trivial)
    | _ => exact L.fail _ hs

theorem toInt (hs : R.inv σ) (hv : R.good σ v v') :
    R.Keeps σ (Alike fun _ _ => True) (Eval.toInt v) (Eval.toInt v') := by
  unfold Eval.toInt
  apply L.derefs hs hv
  intro d hd
  cases d with
  | object o =>
    apply L.next (L.toPrimitive .int hs hd)
    intro p τ hτ _ _
    cases p with
    | int n => exact L.give hτ trivial
    | _ => exact L.fail _ hτ
  | reference r => exact L.fail _ hs
  | invalid => exact L.fail _ hs
  | _ => exact L.give hs trivial

/-- A stored value is converted in both runs. -/
theorem storedToInt {v : Value} (hs : R.inv σ) (hv : R.stored σ v) :
    R.Keeps σ (Alike fun _ _ => True) (Eval.toInt v) (Eval.toInt v) :=
  L.toInt hs (L.good_of_stored hv)

theorem toObject (hs : R.inv σ) (hv : R.good σ v v') :
    R.Keeps σ (Alike fun τ o => R.stored τ (.object o)) (Eval.toObject v) (Eval.toObject v') := by
  unfold Eval.toObject
  apply L.derefs hs hv
  intro d hd
  cases d with
  | object o => exact L.give hs hd
  | _ => exact L.fail _ hs

theorem toWritableReference (hs : R.inv σ) (hv : R.good σ v v') :
    R.Keeps σ (fun τ r r' => R.good τ (.reference r) (.reference r'))
      (Eval.toWritableReference v) (Eval.toWritableReference v') := by
  unfold Eval.toWritableReference
  have hreference : R.Keeps σ (fun τ r r' => R.good τ (.reference r) (.reference r'))
      (Eval.toReference v) (Eval.toReference v') := by
    rcases L.reference hv with rfl | ⟨r, r', rfl, rfl, -, -⟩
    · cases v with
      | reference r => exact L.pure hs hv
      | _ => exact L.fail _ hs
    · exact L.pure hs hv
  apply L.bind hreference
  intro r r' τ hτ _ hr
  rw [keeps_look, ← L.readOnly hτ hr]
  cases (τ.left.slot r.slot).readOnly with
  | true => exact L.fail _ hτ
  | false => exact L.pure hτ hr

theorem assign {r r' : Reference} (hs : R.inv σ) (hr : R.good σ (.reference r) (.reference r'))
    (hv : R.good σ v v') : R.Keeps σ (fun _ _ _ => True) (Eval.assign r v) (Eval.assign r' v') := by
  unfold Eval.assign
  apply L.derefs hs hv
  intro d hd
  rw [keeps_look, ← L.readOnly hs hr]
  cases hro : (σ.left.slot r.slot).readOnly with
  | true => exact L.fail _ hs
  | false => exact (L.write hs hr hro hd).change trivial

theorem operatorAdd {rhs : Value} (hs : R.inv σ) (ho : R.stored σ (.object o))
    (hrhs : R.stored σ rhs) :
    R.Keeps σ (Alike R.stored) (Eval.operatorAdd o rhs) (Eval.operatorAdd o rhs) := by
  have htext := L.storedText hs hrhs
  unfold Eval.operatorAdd
  apply Keeps.look (L.behavior? hs ho)
  cases σ.left.behavior? o with
  | none => exact L.fail _ hs
  | some behavior =>
    cases behavior with
    | string =>
      apply Keeps.look (by rw [L.objectString hs ho, htext])
      exact L.newStringValue _ hs
    | echo =>
      apply Keeps.look (by rw [L.typeName hs ho, htext])
      exact L.newStringValue _ hs
    | _ => exact L.fail _ hs

theorem echoCompare {rhs : Value} (o : ObjectId) (hs : R.inv σ) (hrhs : R.stored σ rhs) :
    Eval.echoCompare σ.left o rhs = Eval.echoCompare σ.right o rhs := by
  cases rhs with
  | object other =>
    have hpayload := L.payload hs hrhs
    simp only [Eval.echoCompare]
    generalize (σ.left.object other).payload = x at hpayload ⊢
    generalize (σ.right.object other).payload = y at hpayload ⊢
    cases hpayload <;> rfl
  | _ => rfl

theorem operatorCompare {rhs : Value} (hs : R.inv σ) (ho : R.stored σ (.object o))
    (hrhs : R.stored σ rhs) :
    R.Keeps σ (Alike fun _ _ => True) (Eval.operatorCompare o rhs)
      (Eval.operatorCompare o rhs) := by
  unfold Eval.operatorCompare
  apply Keeps.look (L.behavior? hs ho)
  cases σ.left.behavior? o with
  | none => exact L.fail _ hs
  | some behavior =>
    cases behavior with
    | string => exact L.see hs (by rw [L.objectString hs ho, L.storedText hs hrhs]) trivial
    | tally =>
      apply L.next (L.storedToInt hs hrhs)
      intro n τ hτ hl _
      exact L.see hτ (by rw [L.hostInt? hτ (L.stored_mono hl ho)]) trivial
    | echo => exact L.see hs (L.echoCompare o hs hrhs) trivial
    | _ => exact L.fail _ hs

theorem operatorSubscript {index : Value} (hs : R.inv σ) (ho : R.stored σ (.object o))
    (hindex : R.stored σ index) :
    R.Keeps σ R.good (Eval.operatorSubscript o index) (Eval.operatorSubscript o index) := by
  have htext := L.storedText hs hindex
  have hmember : R.Keeps σ R.good (do
      let r ← Eval.memberOf o (← Eval.look (·.text index))
      Pure.pure (Value.reference r)) (do
      let r ← Eval.memberOf o (← Eval.look (·.text index))
      Pure.pure (Value.reference r)) := by
    apply Keeps.look htext
    apply L.bind (L.memberOf _ hs ho)
    intro r r' τ hτ _ hr
    exact L.pure hτ hr
  unfold Eval.operatorSubscript
  apply Keeps.look (L.behavior? hs ho)
  cases σ.left.behavior? o with
  | none => exact hmember
  | some behavior =>
    cases behavior with
    | string =>
      apply L.next (L.storedToInt hs hindex)
      intro position τ hτ hl _
      apply Keeps.look (by rw [L.objectString hτ (L.stored_mono hl ho)])
      dsimp only
      generalize (if position < 0 then none else _) = found
      cases found with
      | some c => exact L.given (L.newStringValue _ hτ)
      | none => exact L.fail _ hτ
    | echo =>
      apply Keeps.look (by rw [htext])
      exact L.given (L.newStringValue _ hs)
    | _ => exact hmember

/-! Arguments and new instances. -/

theorem stored_getD (index : Nat) (hargs : ∀ a ∈ args, R.stored σ a) :
    R.stored σ (args.getD index .undefined) := by
  rw [List.getD_eq_getElem?_getD]
  cases h : args[index]? with
  | none => exact L.literal σ trivial
  | some v => exact hargs v (List.mem_of_getElem? h)

theorem isDefined (index : Nat) (hs : R.inv σ) (hargs : ∀ a ∈ args, R.stored σ a) :
    R.Keeps σ (Alike fun _ _ => True) (Eval.isDefined args index) (Eval.isDefined args index) := by
  unfold Eval.isDefined
  cases h : args[index]? with
  | none => exact L.give hs trivial
  | some v =>
    have hv := hargs v (List.mem_of_getElem? h)
    exact L.see hs (by rw [L.deref hs (L.good_of_stored hv)]) trivial

theorem textOrEmpty (index : Nat) (hs : R.inv σ) (hargs : ∀ a ∈ args, R.stored σ a) :
    R.Keeps σ (Alike fun _ _ => True) (Eval.textOrEmpty args index)
      (Eval.textOrEmpty args index) := by
  unfold Eval.textOrEmpty
  apply L.next (L.isDefined index hs hargs)
  intro defined τ hτ hl _
  cases defined with
  | true => exact L.see hτ (L.storedText hτ (L.stored_mono hl (L.stored_getD index hargs))) trivial
  | false => exact L.give hτ trivial

/-- Both runs make the same object. -/
theorem makes {object : Object} (hs : R.inv σ) (hobject : σ.left.Makes (fun _ => True) object)
    (hscripts : object.Scripts fun _ => False) :
    R.Keeps σ (Alike fun τ o => R.stored τ (.object o)) (Eval.update (·.addObject object))
      (Eval.update (·.addObject object)) := by
  obtain ⟨hstep, ho⟩ := L.make hs (.same hobject hscripts)
  exact hstep.update ⟨L.addObject_fst _ _ hs, ho⟩

theorem newScript {f f' : FunctionDef} (hs : R.inv σ) (hf : f.Pairs R.stmt f') (hcode : R.code f f') :
    R.Keeps σ (Alike fun τ o => R.stored τ (.object o)) (Eval.update (·.newFunction (.script f)))
      (Eval.update (·.newFunction (.script f'))) := by
  obtain ⟨hstep, ho⟩ := L.make hs (.script hf hcode)
  exact .ok hstep.inv hstep.leads ⟨congrArg ObjectId.mk (L.size hs), ho⟩

/-- A class that an object stands for is instantiated. -/
theorem construct {c : ClassId} (hs : R.inv σ) (hargs : ∀ a ∈ args, R.stored σ a)
    (hc : (σ.left.object o).wrapped? = some c) :
    R.Keeps σ (Alike fun τ o => R.stored τ (.object o)) (Eval.construct c args)
      (Eval.construct c args) := by
  unfold Eval.construct
  apply Keeps.look (by rw [State.classInfo_congr (L.classes hs)])
  cases hb : (σ.left.classInfo c).behavior with
  | string =>
    apply L.next (L.textOrEmpty 0 hs hargs)
    intro text τ hτ _ _
    exact L.makes hτ (.string text) nofun
  | exception =>
    have hquiet := Eval.quiet_textOrEmpty args 0
    apply (L.textOrEmpty 0 hs hargs).quiet hquiet hquiet
    rintro message _ ⟨rfl, -⟩
    obtain ⟨hstep, ho⟩ := L.newException hs (.exception o c message hc hb)
    exact hstep.update ⟨congrArg ObjectId.mk (L.size hs), ho⟩
  | tally =>
    have hquiet := Eval.quiet_toInt (args.getD 0 .undefined)
    apply (L.storedToInt hs (L.stored_getD 0 hargs)).quiet hquiet hquiet
    rintro n _ ⟨rfl, -⟩
    exact L.makes hs (.tally o c n hc hb) nofun
  | _ => exact L.makes hs (.plain o c hc (by simp [hb]) (by simp [hb]) (by simp [hb])) nofun

/-! Arithmetic and comparison. -/

theorem add {lhs lhs' rhs rhs' : Value} (hs : R.inv σ) (hlhs : R.good σ lhs lhs')
    (hrhs : R.good σ rhs rhs') :
    R.Keeps σ (Alike R.stored) (Eval.add lhs rhs) (Eval.add lhs' rhs') := by
  unfold Eval.add
  apply L.derefs hs hlhs
  intro a ha
  apply L.derefs hs hrhs
  intro b hb
  apply L.bind (L.storedToInt hs ha).attempt
  intro left left' τ hτ hl hleft
  have hbτ := L.stored_mono hl hb
  apply L.bind (L.storedToInt hτ hbτ).attempt
  intro right right' υ hυ hl' hright
  have haυ := L.stored_mono hl' (L.stored_mono hl ha)
  have hbυ := L.stored_mono hl' hbτ
  cases hleft <;> cases hright
  case ok.ok hleft _ _ hright =>
    obtain ⟨rfl, -⟩ := hleft
    obtain ⟨rfl, -⟩ := hright
    exact L.give hυ (L.literal υ trivial)
  -- a side that is no integer: the operator of an object, or the texts
  all_goals
    cases a with
    | object o => exact L.operatorAdd hυ haυ hbυ
    | _ =>
      apply Keeps.look (by rw [L.storedText hυ haυ, L.storedText hυ hbυ])
      exact L.newStringValue _ hυ

section
variable {lhs lhs' rhs rhs' : Value} (hs : R.inv σ) (hlhs : R.good σ lhs lhs')
  (hrhs : R.good σ rhs rhs')
include hs hlhs hrhs

/-- An operation on two integers. -/
theorem onIntegers {f : Int64 → Int64 → Eval Value}
    (hf : ∀ a b τ, R.inv τ → R.Keeps τ (Alike R.stored) (f a b) (f a b)) :
    R.Keeps σ (Alike R.stored) (do
      let a ← Eval.toInt lhs
      let b ← Eval.toInt rhs
      f a b) (do
      let a ← Eval.toInt lhs'
      let b ← Eval.toInt rhs'
      f a b) := by
  apply L.next (L.toInt hs hlhs)
  intro a τ hτ hl _
  apply L.next (L.toInt hτ (L.good_mono hl hrhs))
  intro b υ hυ _ _
  exact hf a b υ hυ

theorem subtract : R.Keeps σ (Alike R.stored) (Eval.subtract lhs rhs) (Eval.subtract lhs' rhs') :=
  L.onIntegers hs hlhs hrhs fun _ _ τ hτ => L.give hτ (L.literal τ trivial)

theorem multiply : R.Keeps σ (Alike R.stored) (Eval.multiply lhs rhs) (Eval.multiply lhs' rhs') :=
  L.onIntegers hs hlhs hrhs fun _ _ τ hτ => L.give hτ (L.literal τ trivial)

/-- An operation that fails if the right side is zero. -/
theorem onDivisor (fault : Fault) (f : Int64 → Int64 → Int64) :
    R.Keeps σ (Alike R.stored) (do
      let a ← Eval.toInt lhs
      let b ← Eval.toInt rhs
      if b = 0 then Eval.fail fault else return .int (f a b)) (do
      let a ← Eval.toInt lhs'
      let b ← Eval.toInt rhs'
      if b = 0 then Eval.fail fault else return .int (f a b)) := by
  apply L.onIntegers hs hlhs hrhs
  intro a b τ hτ
  by_cases hb : b = 0
  · simp only [hb, if_true]
    exact L.fail _ hτ
  · simp only [hb, if_false]
    exact L.give hτ (L.literal τ trivial)

theorem divide : R.Keeps σ (Alike R.stored) (Eval.divide lhs rhs) (Eval.divide lhs' rhs') :=
  L.onDivisor hs hlhs hrhs .divideByZero (· / ·)

theorem modulo : R.Keeps σ (Alike R.stored) (Eval.modulo lhs rhs) (Eval.modulo lhs' rhs') :=
  L.onDivisor hs hlhs hrhs .moduloByZero (· % ·)

theorem compare : R.Keeps σ (Alike fun _ _ => True) (Eval.compare lhs rhs)
    (Eval.compare lhs' rhs') := by
  unfold Eval.compare
  apply L.derefs hs hlhs
  intro a ha
  apply L.derefs hs hrhs
  intro b hb
  cases a with
  | object o =>
    cases b with
    | object other => exact L.operatorCompare hs ha hb
    | _ => exact L.give hs trivial
  | null => exact L.give hs trivial
  | undefined => exact L.give hs trivial
  | invalid =>
    cases b with
    | invalid => exact L.fail _ hs
    | _ => exact L.give hs trivial
  | reference r =>
    cases b with
    | reference r' => exact L.fail _ hs
    | _ => exact L.give hs trivial
  | int n =>
    cases b with
    | _ => exact L.give hs trivial
  | bool b' =>
    cases b with
    | _ => exact L.give hs trivial

theorem binary (op : BinaryOp) :
    R.Keeps σ (Alike R.stored) (Eval.binary op lhs rhs) (Eval.binary op lhs' rhs') := by
  have compared : R.Keeps σ (Alike R.stored) (do
      let c ← Eval.compare lhs rhs
      Pure.pure (.bool (Eval.compared op c))) (do
      let c ← Eval.compare lhs' rhs'
      Pure.pure (.bool (Eval.compared op c))) := by
    apply L.next (L.compare hs hlhs hrhs)
    intro c τ hτ _ _
    exact L.give hτ (L.literal τ trivial)
  cases op with
  | add => exact L.add hs hlhs hrhs
  | subtract => exact L.subtract hs hlhs hrhs
  | multiply => exact L.multiply hs hlhs hrhs
  | divide => exact L.divide hs hlhs hrhs
  | modulo => exact L.modulo hs hlhs hrhs
  | and => exact L.give hs (L.literal σ trivial)
  | or => exact L.give hs (L.literal σ trivial)
  | _ => exact compared

theorem combine (op : AssignOp) :
    R.Keeps σ R.good (Eval.combine op lhs rhs) (Eval.combine op lhs' rhs') := by
  cases op with
  | assign => exact L.pure hs hrhs
  | add => exact L.given (L.add hs hlhs hrhs)
  | subtract => exact L.given (L.subtract hs hlhs hrhs)
  | multiply => exact L.given (L.multiply hs hlhs hrhs)
  | divide => exact L.given (L.divide hs hlhs hrhs)
  | modulo => exact L.given (L.modulo hs hlhs hrhs)

end

section
variable (hs : R.inv σ) (hv : R.good σ v v')
include hs hv

theorem stepping (delta : Int64) :
    R.Keeps σ (fun _ _ _ => True) (Eval.step v delta) (Eval.step v' delta) := by
  unfold Eval.step
  apply L.bind (L.toWritableReference hs hv)
  intro r r' τ hτ _ hr
  rw [keeps_look]
  apply L.next (L.toInt hτ (L.read hτ hr))
  intro n υ hυ hl _
  exact L.assign hυ (L.good_mono hl hr) (L.good_of_stored (L.literal υ trivial))

theorem stepBefore (delta : Int64) :
    R.Keeps σ R.good (Eval.stepBefore v delta) (Eval.stepBefore v' delta) := by
  apply L.bind (L.stepping hs hv delta)
  intro _ _ τ hτ hl _
  exact L.pure hτ (L.good_mono hl hv)

theorem stepAfter (delta : Int64) :
    R.Keeps σ R.good (Eval.stepAfter v delta) (Eval.stepAfter v' delta) := by
  unfold Eval.stepAfter
  apply L.derefs hs hv
  intro old hold
  apply L.bind (L.stepping hs hv delta)
  intro _ _ τ hτ hl _
  exact L.pure hτ (L.good_of_stored (L.stored_mono hl hold))

theorem unary (op : UnaryOp) : R.Keeps σ R.good (Eval.unary op v) (Eval.unary op v') := by
  have integer : ∀ (f : Int64 → Int64), R.Keeps σ R.good (do
      let n ← Eval.toInt v
      Pure.pure (.int (f n))) (do
      let n ← Eval.toInt v'
      Pure.pure (.int (f n))) := by
    intro f
    apply L.next (L.toInt hs hv)
    intro n τ hτ _ _
    exact L.pure hτ (L.good_of_stored (L.literal τ trivial))
  cases op with
  | not =>
    apply L.truths hs hv
    intro b
    exact L.pure hs (L.good_of_stored (L.literal σ trivial))
  | bitwiseNot => exact integer _
  | minus => exact integer _
  | plus => exact integer _
  | preIncrement => exact L.stepBefore hs hv 1
  | preDecrement => exact L.stepBefore hs hv (-1)
  | postIncrement => exact L.stepAfter hs hv 1
  | postDecrement => exact L.stepAfter hs hv (-1)

end

end Scripting.Lockstep.Core
