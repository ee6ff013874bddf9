import Scripting.Tree.Basic

/-!
The parts of a tree, and induction over trees: what a tree has as soon as its parts have it, every tree
has.
-/

namespace Scripting

/-- What the parts of an expression satisfy: the expressions directly inside of it, and the statements
of a function body. -/
def Expr.Parts (p : Expr → Prop) (q : Stmt → Prop) : Expr → Prop
  | .member _ object _ => p object
  | .call _ callee args | .construct _ callee args => p callee ∧ ∀ arg ∈ args, p arg
  | .subscript _ object index => p object ∧ p index
  | .unary _ _ operand => p operand
  | .binary _ _ left right => p left ∧ p right
  | .assign _ _ target value => p target ∧ p value
  | .function _ definition => ∀ item ∈ definition.body, q item.statement
  | _ => True

/-- What the parts of a statement satisfy. -/
def Stmt.Parts (p : Expr → Prop) (q : Stmt → Prop) : Stmt → Prop
  | .expression _ e | .throwValue _ e => p e
  | .block _ items => ∀ item ∈ items, q item.statement
  | .ifElse _ condition thenBranch elseBranch =>
    p condition ∧ q thenBranch ∧ ∀ branch, elseBranch = some branch → q branch
  | .whileLoop _ condition body => p condition ∧ q body
  | .forLoop _ init condition update body =>
    (∀ clause, init = some clause → q clause) ∧ (∀ e, condition = some e → p e) ∧
      (∀ e, update = some e → p e) ∧ q body
  | .switch _ subject items => p subject ∧ ∀ item ∈ items, q item.statement
  | .tryCatch _ body _ handler => q body ∧ q handler
  | .returnValue _ value => ∀ e, value = some e → p e
  | .declare _ _ _ init => ∀ e, init = some e → p e
  | .function _ definition => ∀ item ∈ definition.body, q item.statement
  | _ => True

theorem Stmt.of_parts {p : Expr → Prop} {q : Stmt → Prop} (expr : ∀ e, e.Parts p q → p e)
    (stmt : ∀ s, s.Parts p q → q s) (s : Stmt) : q s := by
  refine @Stmt.rec p (fun f => ∀ item ∈ f.body, q item.statement) (fun item => q item.statement) q
    (fun es => ∀ e ∈ es, p e) (fun items => ∀ item ∈ items, q item.statement)
    (fun branch => ∀ s, branch = some s → q s) (fun value => ∀ e, value = some e → p e)
    ?_ ?_ ?_ ?_ ?_ ?_ ?_ ?_ ?_ ?_ ?_ ?_ ?_ (fun _ _ _ _ h => h) (fun _ _ h => h)
    ?_ ?_ ?_ ?_ ?_ ?_ ?_ ?_ ?_ ?_ ?_ ?_ ?_ ?_
    (List.forall_mem_nil _) (fun _ _ h h' => List.forall_mem_cons.2 ⟨h, h'⟩)
    (List.forall_mem_nil _) (fun _ _ h h' => List.forall_mem_cons.2 ⟨h, h'⟩)
    nofun (fun _ h s hs => Option.some.inj hs ▸ h) nofun (fun _ h e he => Option.some.inj he ▸ h) s
  all_goals
    intros
    first | apply expr | apply stmt
    trivial

end Scripting
