import Scripting.Proofs.Lockstep.Basic
import Scripting.Proofs.RoundTrip.Image

/-!
Trees without error nodes, at any depth. What the parser accepts is such a tree.
-/

namespace Scripting

mutual

/-- No expression and no statement in the expression is an error node. -/
def Expr.errorFree : Expr → Bool
  | .integer .. | .string .. | .identifier .. | .special .. => true
  | .member _ object _ => object.errorFree
  | .call _ callee args => callee.errorFree && Expr.errorFreeAll args
  | .subscript _ object index => object.errorFree && index.errorFree
  | .construct _ callee args => callee.errorFree && Expr.errorFreeAll args
  | .unary _ _ operand => operand.errorFree
  | .binary _ _ left right => left.errorFree && right.errorFree
  | .assign _ _ target value => target.errorFree && value.errorFree
  | .function _ definition => definition.errorFree
  | .error .. => false

def Expr.errorFreeAll : List Expr → Bool
  | [] => true
  | e :: rest => e.errorFree && Expr.errorFreeAll rest

def FunctionDef.errorFree : FunctionDef → Bool
  | .mk _ _ _ body => Item.errorFreeAll body

def Item.errorFreeAll : List Item → Bool
  | [] => true
  | .mk _ statement :: rest => statement.errorFree && Item.errorFreeAll rest

/-- Neither the statement nor anything in it is an error node. -/
def Stmt.errorFree : Stmt → Bool
  | .expression _ expr => expr.errorFree
  | .block _ items => Item.errorFreeAll items
  | .ifElse _ condition thenBranch elseBranch =>
    condition.errorFree && thenBranch.errorFree &&
      (match elseBranch with | some branch => branch.errorFree | none => true)
  | .whileLoop _ condition body => condition.errorFree && body.errorFree
  | .forLoop _ init condition update body =>
    (match init with | some clause => clause.errorFree | none => true) &&
      (match condition with | some e => e.errorFree | none => true) &&
      (match update with | some e => e.errorFree | none => true) && body.errorFree
  | .switch _ subject items => subject.errorFree && Item.errorFreeAll items
  | .tryCatch _ body _ handler => body.errorFree && handler.errorFree
  | .throwValue _ value => value.errorFree
  | .returnValue _ value => (match value with | some e => e.errorFree | none => true)
  | .breakLoop _ | .continueLoop _ => true
  | .declare _ _ _ init => (match init with | some e => e.errorFree | none => true)
  | .function _ definition => definition.errorFree
  | .error .. => false

end

theorem Expr.errorFreeAll_iff {es : List Expr} :
    Expr.errorFreeAll es = true ↔ ∀ e ∈ es, e.errorFree = true := by
  induction es with
  | nil => simp [Expr.errorFreeAll]
  | cons e rest ih => simp [Expr.errorFreeAll, ih]

theorem Item.errorFreeAll_iff {items : List Item} :
    Item.errorFreeAll items = true ↔ ∀ item ∈ items, item.statement.errorFree = true := by
  induction items with
  | nil => simp [Item.errorFreeAll]
  | cons item rest ih =>
    obtain ⟨label, statement⟩ := item
    simp [Item.errorFreeAll, ih, Item.statement]

theorem FunctionDef.errorFree_iff {definition : FunctionDef} :
    definition.errorFree = true ↔ ∀ item ∈ definition.body, item.statement.errorFree = true := by
  obtain ⟨span, name, params, body⟩ := definition
  rw [FunctionDef.errorFree, Item.errorFreeAll_iff, FunctionDef.body]

/-! The parts of a tree without error nodes. -/

theorem Expr.errorFree_parts {e : Expr} (h : e.errorFree = true) :
    e.Parts (·.errorFree = true) (·.errorFree = true) := by
  cases e <;>
    simp_all [Expr.errorFree, Expr.Parts, Expr.errorFreeAll_iff, FunctionDef.errorFree_iff]

theorem Stmt.errorFree_parts {s : Stmt} (h : s.errorFree = true) :
    s.Parts (·.errorFree = true) (·.errorFree = true) := by
  cases s with
  | ifElse _ _ _ branch => cases branch <;> simp_all [Stmt.errorFree, Stmt.Parts]
  | forLoop _ init condition update _ =>
    cases init <;> cases condition <;> cases update <;> simp_all [Stmt.errorFree, Stmt.Parts]
  | returnValue _ value | declare _ _ _ value =>
    cases value <;> simp_all [Stmt.errorFree, Stmt.Parts]
  | _ => simp_all [Stmt.errorFree, Stmt.Parts, Item.errorFreeAll_iff, FunctionDef.errorFree_iff]

/-! What is read has no error nodes. -/

theorem Stmt.errorFree_of_inside {s : Stmt} (hnode : s.isRead = true)
    (h : s.inside Expr.isRead Stmt.isRead = true) : s.errorFree = true := by
  induction s using Stmt.of_parts (p := fun e => e.Read → e.errorFree = true) with
  | expr e ih h =>
    cases e with
    | error => cases h
    | _ => simp_all [Expr.Read, Expr.every, Expr.Parts, Expr.everyAll_iff, FunctionDef.every_iff,
        Expr.errorFree, Expr.errorFreeAll_iff, FunctionDef.errorFree_iff]
  | stmt s ih =>
    cases s with
    | error => cases hnode
    | ifElse _ _ _ branch =>
      cases branch <;> simp_all [Expr.Read, Stmt.inside, Stmt.Parts, Stmt.errorFree]
    | forLoop _ init condition update _ =>
      have hclause : ∀ clause, init = some clause → clause.isRead = true := by
        rintro clause rfl
        exact Stmt.isRead_of_isClause hnode
      cases init <;> cases condition <;> cases update <;>
        simp_all [Expr.Read, Stmt.inside, Stmt.Parts, Stmt.errorFree]
    | returnValue _ value | declare _ _ _ value =>
      cases value <;> simp_all [Expr.Read, Stmt.inside, Stmt.Parts, Stmt.errorFree]
    | _ => simp_all [Expr.Read, Stmt.inside, Stmt.Parts, Stmt.errorFree, Item.everyAll_iff,
        FunctionDef.every_iff, Item.errorFreeAll_iff, FunctionDef.errorFree_iff]

theorem Stmt.Read.errorFree {s : Stmt} (h : s.Read) : s.errorFree = true :=
  Stmt.errorFree_of_inside h.node h.inside

end Scripting
