import Scripting.Eval.Run
import Scripting.Proofs.Lives

/-!
What a computation does from one state: sequences, frames, held things, and calls.

Some proofs change what is done in one place, such as that of a fault, and show that it makes no
difference. Such an interpreter is given by its rules, one for each kind of step (`Rules.interp`).
-/

namespace Scripting.Eval

variable {α β : Type} {s : State}

/-- A sequence that gives a value went through both of its parts. -/
theorem exists_of_bind_ok {m : Eval α} {f : α → Eval β} {s s' : State} {b : β}
    (h : (m >>= f) s = .ok b s') : ∃ a s₁, m s = .ok a s₁ ∧ f a s₁ = .ok b s' := by
  change andThen m f s = _ at h
  unfold andThen at h
  cases hrun : m s with
  | ok a s₁ =>
    rw [hrun] at h
    exact ⟨a, s₁, rfl, h⟩
  | thrown e s₁ => rw [hrun] at h; cases h
  | outOfFuel => rw [hrun] at h; cases h
  | needsFile path => rw [hrun] at h; cases h

theorem bind_congr_at {m : Eval α} {f g : α → Eval β}
    (h : ∀ a s', m s = .ok a s' → f a s' = g a s') : (m >>= f) s = (m >>= g) s := by
  change andThen m f s = andThen m g s
  unfold andThen
  cases hrun : m s with
  | ok a s' => exact h a s' hrun
  | thrown e s' => rfl
  | outOfFuel => rfl
  | needsFile path => rfl

theorem bind_congr_left {m m' : Eval α} (f : α → Eval β) (h : m s = m' s) :
    (m >>= f) s = (m' >>= f) s := by
  change andThen m f s = andThen m' f s
  unfold andThen
  rw [h]

theorem attempt_congr {m m' : Eval α} (h : m s = m' s) : attempt m s = attempt m' s := by
  unfold attempt
  rw [h]

theorem bind_of_ok {m : Eval α} {a : α} {s' : State} (h : m s = .ok a s') (f : α → Eval β) :
    (m >>= f) s = f a s' := by
  change andThen m f s = _
  rw [andThen, h]

theorem bind_of_thrown {m : Eval α} {e : Exception} {s' : State} (h : m s = .thrown e s')
    (f : α → Eval β) : (m >>= f) s = .thrown e s' := by
  change andThen m f s = _
  rw [andThen, h]

theorem bind_bind {γ : Type} (m : Eval α) (f : α → Eval β) (g : β → Eval γ) (s : State) :
    ((m >>= f) >>= g) s = (m >>= fun a => f a >>= g) s := by
  change andThen (andThen m f) g s = andThen m _ s
  rw [andThen, andThen, andThen]
  cases m s <;> rfl

theorem look_bind (g : State → α) (f : α → Eval β) (s : State) :
    (look g >>= f) s = f (g s) s := rfl

theorem toObject_of_object {v : Value} {o : ObjectId} (h : s.deref v = .object o) :
    toObject v s = .ok o s := by
  unfold toObject deref
  rw [look_bind, h]
  rfl

theorem toObject_of_not_object {v : Value} (h : ∀ o, s.deref v ≠ .object o) :
    toObject v s = fail (.cannotConvert (s.deref v).type.text "object") s := by
  unfold toObject deref
  rw [look_bind]
  generalize s.deref v = d at h
  cases d with
  | object o => exact absurd rfl (h o)
  | _ => rfl

theorem toObject_ok {v : Value} {o : ObjectId} {s' : State} (h : toObject v s = .ok o s') :
    s.deref v = .object o ∧ s' = s := by
  by_cases hbehind : ∃ o', s.deref v = .object o'
  · obtain ⟨o', ho'⟩ := hbehind
    rw [toObject_of_object ho'] at h
    cases h
    exact ⟨ho', rfl⟩
  · rw [toObject_of_not_object (not_exists.1 hbehind)] at h
    cases h

/-! References that are written. -/

section
variable {r : Reference}

theorem toWritableReference_of_writable (h : (s.slot r.slot).readOnly = false) :
    toWritableReference (.reference r) s = .ok r s := by
  change (look (fun s => (s.slot r.slot).readOnly) >>= fun readOnly =>
    if readOnly = true then fail .readOnlyReference else pure r) s = _
  rw [look_bind, h]
  rfl

theorem toWritableReference_of_readOnly (h : (s.slot r.slot).readOnly = true) :
    toWritableReference (.reference r) s = fail .readOnlyReference s := by
  change (look (fun s => (s.slot r.slot).readOnly) >>= fun readOnly =>
    if readOnly = true then fail .readOnlyReference else pure r) s = _
  rw [look_bind, h]
  rfl

theorem assign_of_writable (h : (s.slot r.slot).readOnly = false) (v : Value) :
    assign r v s = .ok () (s.writeSlot r.slot (s.deref v)) := by
  unfold assign deref
  rw [look_bind, look_bind, h]
  rfl

theorem assign_of_readOnly (h : (s.slot r.slot).readOnly = true) (v : Value) :
    assign r v s = fail .readOnlyAssignment s := by
  unfold assign deref
  rw [look_bind, look_bind, h]
  rfl

variable {i : Interp} {op : AssignOp} {target value : Expr} {s₁ : State}

/-- What is left of an assignment when its target is bound. -/
theorem assignExpr_of_writable (htarget : i.evaluate target s = .ok (.reference r) s₁)
    (h : (s₁.slot r.slot).readOnly = false) :
    assignExpr i op target value s =
      (holding (Value.reference r).nodes (i.evaluate value) >>= fun rhs =>
        combine op (.reference r) rhs >>= fun new => assign r new >>= fun _ =>
          pure (.reference r)) s₁ := by
  unfold assignExpr
  rw [bind_of_ok htarget, bind_of_ok (toWritableReference_of_writable h)]

theorem assignExpr_of_readOnly (htarget : i.evaluate target s = .ok (.reference r) s₁)
    (h : (s₁.slot r.slot).readOnly = true) :
    assignExpr i op target value s = fail .readOnlyReference s₁ := by
  have hr := toWritableReference_of_readOnly h
  unfold assignExpr
  rw [bind_of_ok htarget, bind_of_thrown hr]
  rfl

end

theorem holding_congr {m m' : Eval α} (nodes : List Node)
    (h : ∀ held, m { s with held := held } = m' { s with held := held }) :
    holding nodes m s = holding nodes m' s := by
  have hhold : m (s.hold nodes) = m' (s.hold nodes) := h _
  unfold holding
  rw [hhold, h s.held]

/-- Without mortal classes it does not matter what is held. -/
theorem holding_of_immortal (h : s.mortal = []) (nodes : List Node) (m : Eval α) :
    holding nodes m s = m s := by
  simp [holding, h]

/-- Settling the classes of an object changes nothing but lives. -/
theorem settleObject_ok (o : ObjectId) (s : State) :
    ∃ s', settleObject o s = .ok () s' ∧ s.Settles s' := by
  unfold settleObject holding
  dsimp only
  split
  · exact ⟨_, rfl, s.settles_settleObject o⟩
  · exact ⟨_, rfl, ((s.hold [.object o]).settles_settleObject o).held⟩

theorem inFrame_congr {m m' : Eval α} {push : State → State} (h : m (push s) = m' (push s)) :
    inFrame push m s = inFrame push m' s := by
  unfold inFrame
  rw [h]

/-- Without mortal classes, looking for the class that `this` lacks changes nothing. -/
theorem missingClass_of_immortal (h : s.mortal = []) (c : ClassId) (this : ObjectId) :
    missingClass (some c) this s =
      .ok (if (s.classInfo c).alive && !s.isInstanceOf this c then some c else none) s := by
  change andThen (settleObject this) _ (s.settleAmong [c]) = _
  rw [State.settleAmong_eq_self h]
  unfold andThen settleObject
  rw [holding_of_immortal h]
  change look _ (s.settleObject this) = _
  rw [State.settleObject_eq_self h]
  rfl

theorem eq_of_missingClass (h : s.mortal = []) {s' : State} {required missing : Option ClassId}
    {this : ObjectId} (hmissing : missingClass required this s = .ok missing s') : s' = s := by
  cases required with
  | none =>
    cases hmissing
    rfl
  | some c =>
    rw [missingClass_of_immortal h] at hmissing
    cases hmissing
    rfl

/-- Without mortal classes a call only puts its frame on the stack and takes it off again. -/
theorem callStep_of_immortal {i : Interp} {v : Value} {callee : ObjectId} (args : List Value)
    (hs : s.mortal = []) (hv : s.deref v = .object callee) :
    callStep i v args s =
      inFrame (·.pushCall (frameName s v callee (containerOf v)) (containerOf v))
        (callObject i callee ((containerOf v).getD callee) args) s := by
  unfold callStep deref
  rw [look_bind, hv]
  exact holding_of_immortal hs _ _

theorem callStep_of_not_object {i : Interp} {v : Value} (args : List Value)
    (hv : ∀ callee, s.deref v ≠ .object callee) :
    callStep i v args s = fail .callOfNonObject s := by
  unfold callStep deref
  rw [look_bind]
  generalize s.deref v = d at hv
  cases d with
  | object callee => exact absurd rfl (hv callee)
  | _ => rfl

/-! What a call does depends on the evaluation that it refers to only where it asks for something. -/

section
variable {i i' : Interp} {this callee : ObjectId} {v : Value} {args : List Value}

theorem includeFile_congr
    (h : ∀ source, s.files.read (s.text (argument args 0)) = some (.ok source) →
      includeSource i (s.text (argument args 0)) source s =
        includeSource i' (s.text (argument args 0)) source s) :
    includeFile i args s = includeFile i' args s := by
  unfold includeFile isDefined
  cases args[0]? with
  | none => rfl
  | some first =>
    rw [look_bind, look_bind]
    split
    · rw [look_bind, look_bind]
      apply bind_congr_at
      intro answer s₁ hanswer
      unfold readFile at hanswer
      split at hanswer
      · rename_i hread
        cases hanswer
        cases answer with
        | ok source => exact h source hread
        | error e => rfl
      · cases hanswer
    · rfl

theorem callNative_congr {function : NativeFunction}
    (hbuiltin : ∀ builtin s', function.callback = .builtin builtin →
      missingClass function.required this s = .ok none s' →
      callBuiltin i builtin this args s' = callBuiltin i' builtin this args s')
    (hhost : ∀ host s', function.callback = .host host →
      missingClass function.required this s = .ok none s' →
      callHost i host this args s' = callHost i' host this args s') :
    callNative i function this args s = callNative i' function this args s := by
  unfold callNative
  apply bind_congr_at
  intro missing s' hmissing
  cases missing with
  | some c => rfl
  | none =>
    dsimp only
    cases hcallback : function.callback with
    | builtin builtin => exact hbuiltin builtin s' hcallback hmissing
    | host host => exact hhost host s' hcallback hmissing

theorem callObject_congr
    (hnative : ∀ function, (s.object callee).callable? = some (.native function) →
      callNative i function this args s = callNative i' function this args s)
    (hscript : ∀ definition, (s.object callee).callable? = some (.script definition) →
      callScript i definition args s = callScript i' definition args s) :
    callObject i callee this args s = callObject i' callee this args s := by
  unfold callObject
  rw [look_bind, look_bind]
  cases s.behavior? callee with
  | none => rfl
  | some behavior =>
    cases behavior with
    | function =>
      dsimp only
      rw [look_bind, look_bind]
      cases hcallable : (s.object callee).callable? with
      | none => rfl
      | some callable =>
        cases callable with
        | native function => exact hnative function hcallable
        | script definition => exact hscript definition hcallable
    | _ => rfl

theorem callStep_congr
    (h : ∀ callee held, s.deref v = .object callee →
      let s' := ({ s with held := held } : State).pushCall (frameName s v callee (containerOf v))
        (containerOf v)
      callObject i callee ((containerOf v).getD callee) args s' =
        callObject i' callee ((containerOf v).getD callee) args s') :
    callStep i v args s = callStep i' v args s := by
  unfold callStep deref
  rw [look_bind, look_bind]
  cases hcallee : s.deref v with
  | object callee =>
    dsimp only
    rw [look_bind, look_bind]
    apply holding_congr
    intro held
    exact inFrame_congr (h callee held hcallee)
  | _ => rfl

end

end Scripting.Eval

namespace Scripting

/-- What is done at an expression, at a statement and in a call, given the evaluation of what lies
inside. -/
structure Rules where
  evaluate : Interp → Expr → Eval Value
  execute : Interp → Stmt → Eval Completion
  call : Interp → Value → List Value → Eval Value

namespace Rules

/-- The evaluation within a bound, by other rules. -/
def interp (rules : Rules) : Nat → Interp
  | 0 => Eval.interp 0
  | n + 1 =>
    ⟨n + 1, rules.evaluate (rules.interp n), rules.execute (rules.interp n), rules.call (rules.interp n)⟩

/-- Runs a source text within a bound, by other rules. -/
def run (rules : Rules) (n : Nat) (source : String) (mode : RunMode) : Eval (Except RunError Value) :=
  Eval.runCode (rules.interp n) source mode

/-- The rules of the language. -/
def language : Rules :=
  ⟨Eval.evaluateStep, Eval.executeStep, Eval.callStep⟩

theorem interp_language (n : Nat) : language.interp n = Eval.interp n := by
  induction n with
  | zero => rfl
  | succ n ih =>
    rw [interp, ih]
    rfl

end Rules

end Scripting
