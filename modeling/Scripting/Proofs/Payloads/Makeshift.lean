import Scripting.Proofs.Payloads.Fitted

/-!
Two faults that never occur: that of a function without a body, and that of a wrapper without a class.

The interpreter is given a makeshift, which it uses in the place of these faults. Where every object
carries the payload that its class expects, it does with any makeshift what it does without one.
-/

namespace Scripting

/-- What is done with a function that has no body, and with a wrapper that has no class. -/
structure Makeshift where
  body : Eval Value
  wrapper : Eval Value

namespace Makeshift

variable (makeshift : Makeshift)

def constructWrapped (this : ObjectId) (args : List Value) : Eval Value := do
  match ← Eval.look fun s => (s.object this).wrapped? with
  | some c =>
    let o ← Eval.construct c args
    return .object o
  | none => makeshift.wrapper

def callBuiltin (i : Interp) (function : Builtin) (this : ObjectId) (args : List Value) :
    Eval Value :=
  match function with
  | .construct => makeshift.constructWrapped this args
  | other => Eval.callBuiltin i other this args

def callNative (i : Interp) (function : NativeFunction) (this : ObjectId) (args : List Value) :
    Eval Value := do
  match ← Eval.missingClass function.required this with
  | some c =>
    let actual ← Eval.look (·.typeName this)
    let required ← Eval.look fun s => (s.classInfo c).name
    Eval.fail (.wrongThis actual required)
  | none =>
    match function.callback with
    | .builtin builtin => makeshift.callBuiltin i builtin this args
    | .host host => Eval.callHost i host this args

def callObject (i : Interp) (callee this : ObjectId) (args : List Value) : Eval Value := do
  match ← Eval.look (·.behavior? callee) with
  | none => Eval.fail .callWithoutClass
  | some .function =>
    match ← Eval.look fun s => (s.object callee).callable? with
    | some (.native function) => makeshift.callNative i function this args
    | some (.script definition) => Eval.callScript i definition args
    | none => makeshift.body
  | some .echo =>
    Eval.newString (← Eval.look fun s => "call(this=" ++ s.typeName this ++ " self=" ++
      toString (decide (this = callee)) ++ " args=" ++ toString args.length ++ ")")
  | some _ => Eval.fail (.notCallable (← Eval.look (·.typeName callee)))

def callStep (i : Interp) (v : Value) (args : List Value) : Eval Value := do
  match ← Eval.deref v with
  | .object callee =>
    let container := Eval.containerOf v
    let name ← Eval.look fun s => Eval.frameName s v callee container
    Eval.holding (.object callee :: v.nodes ++ args.flatMap Value.nodes)
      (Eval.inFrame (·.pushCall name container)
        (makeshift.callObject i callee (container.getD callee) args))
  | _ => Eval.fail .callOfNonObject

def rules : Rules :=
  ⟨Eval.evaluateStep, Eval.executeStep, makeshift.callStep⟩

/-- The evaluation within a bound, with a makeshift. -/
def interp (n : Nat) : Interp :=
  makeshift.rules.interp n

/-- Runs a source text within a bound, with a makeshift. -/
def run (n : Nat) (source : String) (mode : RunMode) : Eval (Except RunError Value) :=
  makeshift.rules.run n source mode

/-- The faults of the interpreter, as a makeshift. -/
def faults : Makeshift :=
  ⟨Eval.fail .functionWithoutBody, Eval.fail .wrapperWithoutClass⟩

/-! A call does the same with a makeshift if the makeshift does the same as the faults where they would
occur. -/

section
variable {makeshift} {i : Interp} {s : State} {callee this : ObjectId} {args : List Value}

theorem callBuiltin_congr {function : Builtin}
    (h : function = .construct → (s.object this).wrapped? = none →
      makeshift.wrapper s = Eval.fail .wrapperWithoutClass s) :
    makeshift.callBuiltin i function this args s = Eval.callBuiltin i function this args s := by
  cases function with
  | construct =>
    change makeshift.constructWrapped this args s = Eval.constructWrapped this args s
    unfold constructWrapped Eval.constructWrapped
    rw [Eval.look_bind, Eval.look_bind]
    cases hwrapped : (s.object this).wrapped? with
    | some c => rfl
    | none => exact h rfl hwrapped
  | _ => rfl

theorem callNative_congr {function : NativeFunction}
    (h : ∀ builtin s', function.callback = .builtin builtin →
      Eval.missingClass function.required this s = .ok none s' →
      makeshift.callBuiltin i builtin this args s' = Eval.callBuiltin i builtin this args s') :
    makeshift.callNative i function this args s = Eval.callNative i function this args s := by
  unfold callNative Eval.callNative
  apply Eval.bind_congr_at
  intro missing s' hmissing
  cases missing with
  | some c => rfl
  | none =>
    dsimp only
    cases hcallback : function.callback with
    | builtin builtin => exact h builtin s' hcallback hmissing
    | host host => rfl

theorem callObject_congr
    (hnative : ∀ function, (s.object callee).callable? = some (.native function) →
      makeshift.callNative i function this args s = Eval.callNative i function this args s)
    (hbody : s.behavior? callee = some .function → (s.object callee).callable? = none →
      makeshift.body s = Eval.fail .functionWithoutBody s) :
    makeshift.callObject i callee this args s = Eval.callObject i callee this args s := by
  unfold callObject Eval.callObject
  apply Eval.bind_congr_at
  rintro _ _ ⟨⟩
  dsimp only
  cases hbehavior : s.behavior? callee with
  | none => rfl
  | some behavior =>
    cases behavior with
    | function =>
      dsimp only
      rw [Eval.look_bind, Eval.look_bind]
      cases hcallable : (s.object callee).callable? with
      | none => exact hbody hbehavior hcallable
      | some callable =>
        cases callable with
        | native function => exact hnative function hcallable
        | script definition => rfl
    | _ => rfl

theorem callStep_congr {v : Value}
    (h : ∀ callee held, s.deref v = .object callee →
      let s' := ({ s with held := held } : State).pushCall
        (Eval.frameName s v callee (Eval.containerOf v)) (Eval.containerOf v)
      makeshift.callObject i callee ((Eval.containerOf v).getD callee) args s' =
        Eval.callObject i callee ((Eval.containerOf v).getD callee) args s') :
    makeshift.callStep i v args s = Eval.callStep i v args s := by
  unfold callStep Eval.callStep
  apply Eval.bind_congr_at
  rintro _ _ ⟨⟩
  dsimp only
  cases hcallee : s.deref v with
  | object callee =>
    apply Eval.bind_congr_at
    rintro name _ ⟨⟩
    apply Eval.holding_congr
    intro held
    exact Eval.inFrame_congr (h callee held hcallee)
  | _ => rfl

end

/-- An interpreter with a makeshift differs from one without only in the place of the faults. -/
theorem interp_faults (n : Nat) : faults.interp n = Eval.interp n := by
  have hcall : faults.callStep = Eval.callStep := by
    funext i v args s
    apply callStep_congr
    intro callee held _
    apply callObject_congr ?_ fun _ _ => rfl
    intro function _
    apply callNative_congr
    intro builtin s' _ _
    exact callBuiltin_congr fun _ _ => rfl
  have hrules : faults.rules = .language := by rw [rules, hcall, Rules.language]
  rw [interp, hrules, Rules.interp_language]

/-! Where payloads fit, no makeshift is needed. -/

section
variable {s : State} (hsealed : s.Sealed) (hfitted : s.Fitted)
include hsealed hfitted

/-- Where the class of wrappers is not missing, `this` is a wrapper. -/
theorem wrapped?_of_missingClass {s' : State} {this : ObjectId}
    (h : Eval.missingClass (some .wrapper) this s = .ok none s') :
    s' = s ∧ ∃ c, (s.object this).wrapped? = some c := by
  have halive : (s.classInfo .wrapper).alive = true := hfitted.alive_eq .wrapper
  rw [Eval.missingClass_of_immortal hsealed.immortal, halive] at h
  cases hinstance : s.isInstanceOf this .wrapper with
  | true =>
    rw [hinstance] at h
    cases h
    exact ⟨rfl, hfitted.wrapped?_of_isInstanceOf hinstance⟩
  | false =>
    rw [hinstance] at h
    cases h

theorem callObject_eq (i : Interp) (callee this : ObjectId) (args : List Value) :
    makeshift.callObject i callee this args s = Eval.callObject i callee this args s := by
  apply callObject_congr
  · intro function hfunction
    apply callNative_congr
    intro builtin s' hcallback hmissing
    apply callBuiltin_congr
    rintro rfl hnone
    rw [hfitted.required_eq hfunction hcallback] at hmissing
    obtain ⟨rfl, c, hwrapped⟩ := wrapped?_of_missingClass hsealed hfitted hmissing
    rw [hwrapped] at hnone
    cases hnone
  · intro hbehavior hnone
    obtain ⟨callable, hcallable⟩ := hfitted.callable?_of_behavior? hbehavior
    rw [hcallable] at hnone
    cases hnone

end

theorem callStep_eq (i : Interp) {s : State} (hs : Discipline.fitted.inv s) {v : Value}
    (hv : Discipline.fitted.good s v) (args : List Value) :
    makeshift.callStep i v args s = Eval.callStep i v args s := by
  have L := Discipline.fitted_lawful
  apply callStep_congr
  intro callee held _
  have hsealed : ({ s with held := held } : State).Sealed :=
    hs.1.of_heap rfl rfl rfl rfl rfl rfl hs.1.this
  have hheld : Discipline.fitted.inv { s with held := held } :=
    ⟨hsealed, Discipline.fitted_heapLaws.of_heap hs.2 rfl rfl rfl⟩
  have hleads : Discipline.fitted.leads s { s with held := held } := State.grows_of_objects rfl
  have hcontainer : ∀ o, Eval.containerOf v = some o →
      Discipline.fitted.stored { s with held := held } (.object o) := by
    intro o ho
    cases v with
    | reference r => exact L.stored_mono hleads (L.container hv ho)
    | _ => cases ho
  have hpushed := (L.pushCall (Eval.frameName s v callee (Eval.containerOf v)) hheld
    hcontainer).inv
  exact makeshift.callObject_eq hpushed.1 hpushed.2 i callee _ args

end Makeshift

/-- Within the discipline no makeshift is used. -/
theorem Discipline.follows_makeshift (makeshift : Makeshift) (i : Interp) :
    fitted.Follows makeshift.rules i where
  evaluate _ _ := rfl
  execute _ _ := rfl
  call {_ args _} hs hv _ := makeshift.callStep_eq i hs hv args

/-- A run of an interpreter does the same with any makeshift. -/
theorem Makeshift.run_eq (makeshift : Makeshift) {s : State} (hs : Discipline.fitted.inv s) (n : Nat)
    (source : String) (mode : RunMode) :
    makeshift.run n source mode s = Eval.run n source mode s :=
  Discipline.fitted_lawful.run_eq Discipline.fitted_hosts
    (fun _ => Discipline.follows_makeshift makeshift _) n source mode hs trivial

end Scripting
