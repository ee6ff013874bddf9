import Scripting.Proofs.Discipline.Basic

/-!
Every computation keeps a lawful discipline, because one run beside itself is two runs in lockstep.
-/

namespace Scripting.Discipline

variable {D : Discipline} {s : State} {i i' : Interp} {args : List Value}

/-- Within a discipline, rules are those of the language, where `i` evaluates what lies inside. -/
structure Follows (D : Discipline) (rules : Rules) (i : Interp) : Prop where
  evaluate : ∀ {e s}, D.expr e → D.inv s → rules.evaluate i e s = Eval.evaluateStep i e s
  execute : ∀ {statement s}, D.stmt statement → D.inv s →
    rules.execute i statement s = Eval.executeStep i statement s
  call : ∀ {v args s}, D.inv s → D.good s v → (∀ a ∈ args, D.stored s a) →
    rules.call i v args s = Eval.callStep i v args s

theorem Step.of_twin {s' : State} (h : D.twin.Step ⟨s, s⟩ ⟨s', s'⟩) : D.Step s s' := by
  obtain ⟨⟨_, ⟨⟩, hs'⟩, hl⟩ := h
  exact ⟨hs', hl⟩

namespace Inner

variable (L : D.Inner)
include L

/-- The functions of the host respect a discipline if the values that they supply may be given and the
data that they keep may be changed. -/
theorem hosts (hdata : ∀ {s} o data, D.inv s → D.Step s (s.setHostData o data))
    (hconstant : ∀ {s v}, D.host (.constant v) → D.inv s → D.good s v)
    (hinvalid : ∀ {s}, D.host .invalid → D.inv s → D.good s .invalid) : D.twin.Hosts := by
  apply L.twin.hosts
  · rintro _ o _ data ⟨s, rfl, hs⟩ _ _
    exact (hdata o data hs).twin
  · rintro _ v hv ⟨s, rfl, hs⟩
    exact ⟨rfl, hconstant hv hs⟩
  · rintro _ h ⟨s, rfl, hs⟩
    exact ⟨rfl, hinvalid h hs⟩

theorem member {o : ObjectId} (name : String) (hs : D.inv s) (ho : D.stored s (.object o)) :
    D.Step s (s.member o name).2 ∧
      D.good (s.member o name).2 (.reference (s.member o name).1) := by
  have hinv : D.twin.inv ⟨s, s⟩ := ⟨s, rfl, hs⟩
  obtain ⟨hstep, hgood⟩ := L.twin.member name hinv ho
  exact ⟨.of_twin hstep, hgood.2⟩

theorem assign {r : Reference} {v : Value} (hs : D.inv s) (hr : D.good s (.reference r))
    (hv : D.good s v) : D.Keeps s (fun _ _ => True) (Eval.assign r v) :=
  .of_twin (L.twin.assign ⟨s, rfl, hs⟩ ⟨rfl, hr⟩ ⟨rfl, hv⟩) fun _ _ _ => trivial

theorem unary {v : Value} (op : UnaryOp) (hs : D.inv s) (hv : D.good s v) :
    D.Keeps s D.good (Eval.unary op v) :=
  .of_twin (L.twin.unary ⟨s, rfl, hs⟩ ⟨rfl, hv⟩ op) fun _ _ h => h.2

section
variable (I : D.Interprets i)
include I

theorem arguments {args : List Expr} (hargs : ∀ arg ∈ args, D.expr arg) (hs : D.inv s) :
    D.Keeps s (fun s' vs => ∀ v ∈ vs, D.stored s' v) (Eval.arguments i args) :=
  .of_twin (L.twin.arguments (I.twin (.refl D i)).toEvaluates
    (List.forall₂_same.2 fun arg h => ⟨rfl, hargs arg h⟩) ⟨s, rfl, hs⟩) fun _ _ h => h.2

theorem runBlock {items : List Item} (hitems : ∀ item ∈ items, D.stmt item.statement)
    (hs : D.inv s) : D.Keeps s D.ended (Eval.runBlock i items) :=
  .of_twin (L.twin.runBlock ((I.twin (.refl D i)).executeAll
    (Item.pairs_self fun item h => ⟨rfl, hitems item h⟩)) ⟨s, rfl, hs⟩) fun _ _ => ended_of_twin

theorem runProgram {program : Program}
    (hprogram : ∀ statement ∈ program.statements, D.stmt statement) (hs : D.inv s) :
    D.Keeps s D.good (Eval.runProgram i program) :=
  .of_twin (L.twin.runProgram (I.twin (.refl D i))
    (List.forall₂_same.2 fun statement h => ⟨rfl, hprogram statement h⟩) ⟨s, rfl, hs⟩)
    fun _ _ h => h.2

theorem runCode (source : String) (mode : RunMode) (hs : D.inv s) (hsource : D.text source) :
    D.Keeps s D.ran (Eval.runCode i source mode) := by
  apply Keeps.of_twin (L.twin.runCode (I.twin (.refl D i)) source mode ⟨s, rfl, hs⟩ hsource)
  rintro s' r ⟨-, hr⟩
  match r with
  | .ok v => exact hr
  | .error (.uncaught e) => exact hr
  | .error (.lexer _) | .error (.parser _) | .error (.output _) => trivial

theorem callScript {definition : FunctionDef}
    (hbody : ∀ item ∈ definition.body, D.stmt item.statement) (hargs : ∀ a ∈ args, D.stored s a)
    (hs : D.inv s) : D.Keeps s D.stored (Eval.callScript i definition args) :=
  .of_twin (L.twin.callScript (I.twin (.refl D i))
    (FunctionDef.pairs_self fun item h => ⟨rfl, hbody item h⟩) ⟨s, rfl, hs⟩ hargs) fun _ _ h => h.2

/-! What a rule does depends only on what lies within the discipline. -/

variable (A : D.Agree i i')
include A

theorem evaluateStep_congr {e : Expr} (he : D.expr e) (hs : D.inv s) :
    Eval.evaluateStep i e s = Eval.evaluateStep i' e s :=
  eq_of_twin (L.twin.evaluateStep (I.twin A).toEvaluates ⟨rfl, he⟩ ⟨s, rfl, hs⟩) fun _ _ _ h => h.1

theorem executeStep_congr {statement : Stmt} (hstatement : D.stmt statement) (hs : D.inv s) :
    Eval.executeStep i statement s = Eval.executeStep i' statement s :=
  eq_of_twin (L.twin.executeStep (I.twin A) ⟨rfl, hstatement⟩ ⟨s, rfl, hs⟩) fun _ _ _ => eq_of_ended

theorem callScript_congr {definition : FunctionDef}
    (hbody : ∀ item ∈ definition.body, D.stmt item.statement) (hargs : ∀ a ∈ args, D.stored s a)
    (hs : D.inv s) : Eval.callScript i definition args s = Eval.callScript i' definition args s :=
  eq_of_twin (L.twin.callScript (I.twin A) (FunctionDef.pairs_self fun item h => ⟨rfl, hbody item h⟩)
    ⟨s, rfl, hs⟩ hargs) fun _ _ _ h => h.1

theorem runCode_congr (source : String) (mode : RunMode) (hs : D.inv s) (hsource : D.text source) :
    Eval.runCode i source mode s = Eval.runCode i' source mode s :=
  eq_of_twin (L.twin.runCode (I.twin A) source mode ⟨s, rfl, hs⟩ hsource) fun _ _ _ h => h.1

end

end Inner

namespace Lawful

variable (L : D.Lawful)
include L

/-- Every bound on the length of evaluation. -/
theorem interprets (H : D.twin.Hosts) (n : Nat) : D.Interprets (Eval.interp n) where
  evaluate he hs :=
    .of_twin ((L.twin.interprets H n).evaluate ⟨rfl, he⟩ ⟨_, rfl, hs⟩) fun _ _ h => h.2
  execute h hs :=
    .of_twin ((L.twin.interprets H n).execute ⟨rfl, h⟩ _ ⟨_, rfl, hs⟩) fun _ _ => ended_of_twin
  call hs hv hargs :=
    .of_twin ((L.twin.interprets H n).call ⟨_, rfl, hs⟩ ⟨rfl, hv⟩ hargs) fun _ _ h => h.2

theorem includeFile (I : D.Interprets i) (hs : D.inv s) (hargs : ∀ a ∈ args, D.stored s a) :
    D.Keeps s D.stored (Eval.includeFile i args) :=
  .of_twin (L.twin.includeFile (I.twin (.refl D i)) ⟨s, rfl, hs⟩ hargs) fun _ _ h => h.2

theorem callObject (I : D.Interprets i) (H : D.twin.Hosts) (callee this : ObjectId)
    (args : List Value) (hs : D.inv s) (hcallee : D.stored s (.object callee))
    (hthis : D.stored s (.object this)) (hargs : ∀ a ∈ args, D.stored s a) :
    D.Keeps s D.good (Eval.callObject i callee this args) := by
  have I' := I.twin (.refl D i)
  have hinv : D.twin.inv ⟨s, s⟩ := ⟨s, rfl, hs⟩
  refine .of_twin (L.twin.callObject (Q := D.twin.good) I' (fun _ _ h => ⟨rfl, L.good_of_stored h⟩)
    ?_ hinv hcallee hthis hargs) fun _ _ h => h.2
  intro f h τ hf hcallback hτ
  exact H I' (L.twin.hostOf hinv hcallee hf hcallback) hτ

theorem callStep_congr (I : D.Interprets i) (A : D.Agree i i') {v : Value} (H : D.twin.Hosts)
    (hs : D.inv s) (hv : D.good s v) (hargs : ∀ a ∈ args, D.stored s a) :
    Eval.callStep i v args s = Eval.callStep i' v args s :=
  eq_of_twin (L.twin.callStep (I.twin A) H ⟨s, rfl, hs⟩ ⟨rfl, hv⟩ hargs) fun _ _ _ h => h.1

/-- Rules that are those of the language wherever they lie within a discipline do there what the language
does. -/
theorem agree (H : D.twin.Hosts) {rules : Rules} (hrules : ∀ n, D.Follows rules (rules.interp n))
    (n : Nat) : D.Agree (Eval.interp n) (rules.interp n) := by
  induction n with
  | zero => exact .refl D _
  | succ n ih =>
    have I := L.interprets H n
    have F := hrules n
    refine ⟨rfl, ?_, ?_, ?_⟩
    · intro e s he hs
      exact (L.evaluateStep_congr I ih he hs).trans (F.evaluate he hs).symm
    · intro statement s hstatement hs
      exact (L.executeStep_congr I ih hstatement hs).trans (F.execute hstatement hs).symm
    · intro v args s hs hv hargs
      exact (L.callStep_congr I ih H hs hv hargs).trans (F.call hs hv hargs).symm

theorem run_eq (H : D.twin.Hosts) {rules : Rules} (hrules : ∀ n, D.Follows rules (rules.interp n))
    (n : Nat) (source : String) (mode : RunMode) (hs : D.inv s) (hsource : D.text source) :
    rules.run n source mode s = Eval.run n source mode s :=
  (L.runCode_congr (L.interprets H n) (L.agree H hrules n) source mode hs hsource).symm

end Lawful

end Scripting.Discipline
