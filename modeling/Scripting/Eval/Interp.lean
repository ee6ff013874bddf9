import Scripting.Eval.Operation

/-!
What the rules of evaluation are written against.

The rules for expressions, statements and calls refer to each other. Each of them takes an `Interp`,
which holds the evaluation of what lies inside, so no rule is recursive by itself.
-/

namespace Scripting

/-- How a statement ended. -/
inductive Completion where
  | normal (value : Value)
  | returned (value : Value)
  | broken
  | continued
deriving DecidableEq, Repr, Inhabited

/-- The evaluation of expressions, statements and calls, and a bound for loops. -/
structure Interp where
  fuel : Nat
  evaluate : Expr → Eval Value
  execute : Stmt → Eval Completion
  call : Value → List Value → Eval Value

end Scripting
