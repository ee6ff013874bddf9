import Scripting.Proofs.RoundTrip.Reading

/-!
Legible trees: those that are written in a way that can be read back. Every node satisfies what holds
of the nodes that the parser makes (`isRead`), and what it takes to be written without ambiguity.
-/

namespace Scripting

def CaseLabel.isRead : CaseLabel → Bool
  | .value n => -0x8000000000000000 < n.toInt
  | .default => true

/-- The name, the parameters and the labels of a function that the parser makes. -/
def FunctionDef.isRead (definition : FunctionDef) : Bool :=
  definition.name.all isName && definition.params.all isName &&
    definition.body.all (·.label.isNone)

/-- What holds of an expression that the parser makes, apart from the trees in it. -/
def Expr.isRead : Expr → Bool
  | .integer _ value => 0 ≤ value.toInt
  | .identifier _ name => isName name
  | .member _ _ name => Lexeme.isWord name.toList
  | .function _ definition => definition.isRead
  | .error .. => false
  | _ => true

/-- Holds for a statement that ends with an `if` that has no `else`. -/
def Stmt.endsOpen : Stmt → Bool
  | .ifElse _ _ _ none => true
  | .ifElse _ _ _ (some branch) => branch.endsOpen
  | .whileLoop _ _ body => body.endsOpen
  | .forLoop _ _ _ _ body => body.endsOpen
  | .tryCatch _ _ _ handler => handler.endsOpen
  | _ => false

/-- Holds for the first clauses of a `for` that the parser makes. -/
def Stmt.isClause : Stmt → Bool
  | .expression .. => true
  | .declare _ kind name init => isName name && (kind = .letDecl || init.isSome)
  | _ => false

/-- What holds of a statement that the parser makes, apart from the trees in it. -/
def Stmt.isRead : Stmt → Bool
  | .block _ items => items.all (·.label.isNone)
  | .ifElse _ _ thenBranch (some _) => !thenBranch.endsOpen
  | .forLoop _ init _ _ _ => init.all Stmt.isClause
  | .switch _ _ items => items.all (·.label.all CaseLabel.isRead)
  | .tryCatch _ _ binding _ => isName binding
  | .declare span kind name init => Stmt.isClause (.declare span kind name init)
  | .function _ definition => definition.isRead && definition.name.isSome
  | .error .. => false
  | _ => true

theorem Stmt.isRead_of_isClause {s : Stmt} (h : s.isClause = true) : s.isRead = true := by
  cases s <;> first | exact h | rfl | cases h

def Expr.isLegible (e : Expr) : Bool :=
  e.isRead && e.lacksQuote && e.constructsPlainly

def Stmt.isLegible (s : Stmt) : Bool :=
  s.isRead && s.startsPlainly

/-- Every node of the expression is legible. -/
def Expr.Legible (e : Expr) : Prop :=
  e.every Expr.isLegible Stmt.isLegible = true

/-- Every node in the statement is legible; the statement itself need not be. -/
def Stmt.LegibleInside (s : Stmt) : Prop :=
  s.inside Expr.isLegible Stmt.isLegible = true

structure Stmt.Legible (s : Stmt) : Prop where
  node : s.isLegible = true
  inside : s.LegibleInside

theorem Stmt.Legible.isRead {s : Stmt} (h : s.Legible) : s.isRead = true := by
  have hnode := h.node
  rw [Stmt.isLegible, Bool.and_eq_true] at hnode
  exact hnode.1

theorem Stmt.Legible.startsPlainly {s : Stmt} (h : s.Legible) : s.startsPlainly = true := by
  have hnode := h.node
  rw [Stmt.isLegible, Bool.and_eq_true] at hnode
  exact hnode.2

end Scripting
