import Scripting.Eval.Call
import Scripting.Eval.Expr

/-!
Evaluation with a bound.

A script may run forever, so evaluation takes a bound on its depth and on the number of turns of its
loops. A computation that ends within some bound has the same outcome under every larger one.
-/

namespace Scripting.Eval

mutual

def evaluate : Nat → Expr → Eval Value
  | 0, _ => outOfFuel
  | n + 1, e => evaluateStep ⟨n, evaluate n, execute n, call n⟩ e

def execute : Nat → Stmt → Eval Completion
  | 0, _ => outOfFuel
  | n + 1, statement => executeStep ⟨n, evaluate n, execute n, call n⟩ statement

def call : Nat → Value → List Value → Eval Value
  | 0, _, _ => outOfFuel
  | n + 1, v, args => callStep ⟨n, evaluate n, execute n, call n⟩ v args

end

/-- A bound that no script reaches in any time that can be waited for. -/
def ample : Nat := 0x1000000000000000

/-- The evaluation within a bound. -/
def interp (n : Nat) : Interp :=
  ⟨n, evaluate n, execute n, call n⟩

/-- Runs a source text within a bound. -/
def run (n : Nat) (source : String) (mode : RunMode) : Eval (Except RunError Value) :=
  runCode (interp n) source mode

end Scripting.Eval
