import Scripting.Proofs.Acceptance.ErrorFree
import Scripting.Proofs.Discipline.Code
import Scripting.Proofs.Discipline.Reach

/-!
No error node is ever run. The interpreter is given an alarm that goes off at error nodes, in the place
of their faults; with any alarm it does what it does without one.
-/

namespace Scripting

/-- What is done at an expression and at a statement that could not be read. -/
structure Alarm where
  expression : Eval Value
  statement : Eval Completion

namespace Alarm

variable (alarm : Alarm)

def evaluateStep (i : Interp) : Expr → Eval Value
  | .error _ _ => alarm.expression
  | e => Eval.evaluateStep i e

def executeStep (i : Interp) : Stmt → Eval Completion
  | .error _ _ => alarm.statement
  | statement => Eval.executeStep i statement

def rules : Rules :=
  ⟨alarm.evaluateStep, alarm.executeStep, Eval.callStep⟩

/-- The evaluation within a bound, with an alarm. -/
def interp (n : Nat) : Interp :=
  alarm.rules.interp n

/-- Runs a source text within a bound, with an alarm. -/
def run (n : Nat) (source : String) (mode : RunMode) : Eval (Except RunError Value) :=
  alarm.rules.run n source mode

/-- The faults of the interpreter, as an alarm. -/
def faults : Alarm :=
  ⟨Eval.fail .invalidExpression, Eval.fail .invalidStatement⟩

/-- An interpreter with an alarm differs from one without only at error nodes. -/
theorem interp_faults (n : Nat) : faults.interp n = Eval.interp n := by
  have hevaluate : faults.evaluateStep = Eval.evaluateStep := by
    funext i e
    cases e <;> rfl
  have hexecute : faults.executeStep = Eval.executeStep := by
    funext i statement
    cases statement <;> rfl
  have hrules : faults.rules = .language := by rw [rules, hevaluate, hexecute, Rules.language]
  rw [interp, hrules, Rules.interp_language]

end Alarm

namespace State

/-- No function that a script made has an error node in it. -/
def ErrorFree (s : State) : Prop :=
  ∀ o definition, (s.object o).callable? = some (.script definition) → definition.errorFree = true

theorem errorFree_install (globalMarker thisMarker : Option String) (files : Files) :
    (bare globalMarker thisMarker files).install.ErrorFree :=
  scripts_install globalMarker thisMarker files

end State

namespace Discipline

/-- Only trees without error nodes are evaluated, executed and made into functions. -/
def errorFree : Discipline where
  inv s := s.ErrorFree
  leads _ _ := True
  good _ _ := True
  stored _ _ := True
  raised _ _ := True
  expr e := e.errorFree = true
  stmt s := s.errorFree = true
  host _ := True

theorem errorFree_codeLaws : CodeLaws State.ErrorFree (·.errorFree = true) (·.errorFree = true)
    (fun _ => True) (fun _ => True) where
  of_payloads hs h _ := State.Scripts.of_payloads hs h
  make := by
    intro s object hs hmakes _
    apply State.Scripts.addObject hs
    intro definition hcallable
    cases hmakes with
    | script definition' h =>
      cases hcallable
      exact FunctionDef.errorFree_iff.2 h
    | _ => cases hcallable
  scope _ hs := State.Scripts.addObject hs nofun
  setHostData o data hs := State.Scripts.setHostData hs o data
  expr_parts h := Expr.errorFree_parts h
  stmt_parts h := Stmt.errorFree_parts h
  expr_code _ := trivial
  stmt_code _ := trivial
  script hs hcallable := FunctionDef.errorFree_iff.1 (hs _ _ hcallable)
  text_of_file _ _ := trivial
  program := by
    intro source program _ hprogram herror statement hstatement
    have herrors : program.errors = [] := by simpa [Program.isError] using herror
    exact (Program.read hprogram herrors statement hstatement).errorFree

theorem errorFree_lawful : errorFree.Lawful :=
  lawful_ofCode errorFree_codeLaws

theorem errorFree_hosts : errorFree.twin.Hosts :=
  hosts_ofCode errorFree_codeLaws

/-- Within the discipline no alarm goes off. -/
theorem follows_alarm (alarm : Alarm) (i : Interp) : errorFree.Follows alarm.rules i where
  evaluate {e s} he _ := by
    cases e with
    | error => cases he
    | _ => rfl
  execute {statement s} hstatement _ := by
    cases statement with
    | error => cases hstatement
    | _ => rfl
  call _ _ _ := rfl

end Discipline

/-- A run in which no function has an error node does the same with any alarm. -/
theorem Alarm.run_eq (alarm : Alarm) {s : State} (hs : s.ErrorFree) (n : Nat) (source : String)
    (mode : RunMode) : alarm.run n source mode s = Eval.run n source mode s :=
  Discipline.errorFree_lawful.run_eq Discipline.errorFree_hosts
    (fun _ => Discipline.follows_alarm alarm _) n source mode hs trivial

/-- The functions that scripts make have no error nodes. -/
theorem State.BetweenRuns.errorFree {s : State} (h : s.BetweenRuns) : s.ErrorFree :=
  Discipline.errorFree_lawful.betweenRuns Discipline.errorFree_hosts State.errorFree_install
    (fun _ => trivial) h

end Scripting
