import Scripting.Tree.Printer

/-!
The outline of a tree: one row for each node, a node before its children, children indented one step
deeper and in the order in which they are written.
-/

namespace Scripting

/-- A row of an outline. The label of a `switch` section is a row without a span. -/
structure OutlineRow where
  depth : Nat
  label : String
  span : Option Span
deriving Repr, Inhabited

namespace Outline

def flag (name : String) (value : Bool) : String :=
  name ++ "=" ++ toString value

def row (depth : Nat) (label : String) (span : Span) : OutlineRow :=
  ⟨depth, label, some span⟩

def labelRows (depth : Nat) : Option CaseLabel → List OutlineRow
  | some label => [⟨depth, label.text, none⟩]
  | none => []

mutual

def ofExpr (d : Nat) : Expr → List OutlineRow
  | .integer s value => [row d ("Integer " ++ toString value.toInt) s]
  | .string s text => [row d ("String " ++ text) s]
  | .identifier s name => [row d ("Identifier " ++ name) s]
  | .special s value => [row d ("Special " ++ value.text) s]
  | .member s object name => row d ("Member " ++ name) s :: ofExpr (d + 1) object
  | .call s callee args =>
    row d ("Call " ++ toString args.length) s :: ofExpr (d + 1) callee ++ ofExprs (d + 1) args
  | .subscript s object index =>
    row d "Subscript" s :: ofExpr (d + 1) object ++ ofExpr (d + 1) index
  | .construct s callee args =>
    row d ("New " ++ toString args.length) s :: ofExpr (d + 1) callee ++ ofExprs (d + 1) args
  | .unary s op operand =>
    row d ((if op.isPostfix then "Postfix " else "Prefix ") ++ op.text) s ::
      ofExpr (d + 1) operand
  | .binary s op left right =>
    row d ("Binary " ++ op.text) s :: ofExpr (d + 1) left ++ ofExpr (d + 1) right
  | .assign s op target value =>
    row d ("Assign " ++ op.text) s :: ofExpr (d + 1) target ++ ofExpr (d + 1) value
  | .function s definition => row d "FunctionExpr" s :: ofFunction (d + 1) definition
  | .error s errors => [row d ("Error " ++ toString errors.length) s]

def ofExprs (d : Nat) : List Expr → List OutlineRow
  | [] => []
  | e :: rest => ofExpr d e ++ ofExprs d rest

def ofFunction (d : Nat) : FunctionDef → List OutlineRow
  | .mk s name params body =>
    row d ("Decl " ++ name.getD "<anonymous>" ++ "(" ++ ",".intercalate params ++ ") " ++
      flag "scope" (needsScope body)) s :: ofItems (d + 1) body

def ofItems (d : Nat) : List Item → List OutlineRow
  | [] => []
  | .mk label statement :: rest => labelRows d label ++ ofStmt d statement ++ ofItems d rest

def ofStmt (d : Nat) : Stmt → List OutlineRow
  | .expression s expr => row d "Expression" s :: ofExpr (d + 1) expr
  | .block s items => row d ("Block " ++ flag "scope" (needsScope items)) s :: ofItems (d + 1) items
  | .ifElse s condition thenBranch elseBranch =>
    row d ("If " ++ flag "else" elseBranch.isSome) s :: ofExpr (d + 1) condition ++
      ofStmt (d + 1) thenBranch ++
      (match elseBranch with | some b => ofStmt (d + 1) b | none => [])
  | .whileLoop s condition body =>
    row d "While" s :: ofExpr (d + 1) condition ++ ofStmt (d + 1) body
  | .forLoop s init condition update body =>
    row d ("For " ++ flag "init" init.isSome ++ " " ++ flag "condition" condition.isSome ++ " " ++
      flag "update" update.isSome) s ::
      (match init with | some i => ofStmt (d + 1) i | none => []) ++
      (match condition with | some e => ofExpr (d + 1) e | none => []) ++
      (match update with | some e => ofExpr (d + 1) e | none => []) ++ ofStmt (d + 1) body
  | .switch s subject items =>
    row d ("Switch " ++ flag "scope" (needsScope items)) s :: ofExpr (d + 1) subject ++
      ofItems (d + 1) items
  | .tryCatch s body binding handler =>
    row d ("Try " ++ binding) s :: ofStmt (d + 1) body ++ ofStmt (d + 1) handler
  | .throwValue s value => row d "Throw" s :: ofExpr (d + 1) value
  | .returnValue s value =>
    row d "Return" s :: (match value with | some e => ofExpr (d + 1) e | none => [])
  | .breakLoop s => [row d "Break" s]
  | .continueLoop s => [row d "Continue" s]
  | .declare s kind name init =>
    row d ((match kind with | .letDecl => "Let " | .constDecl => "Const ") ++ name) s ::
      (match init with | some e => ofExpr (d + 1) e | none => [])
  | .function s definition => row d "Function" s :: ofFunction (d + 1) definition
  | .error s errors => [row d ("Error " ++ toString errors.length) s]

end

def ofProgram (p : Program) : List OutlineRow :=
  p.statements.flatMap (ofStmt 0)

end Outline

end Scripting
