import Scripting.Tree.Basic

/-!
The text of a tree. Every unary, binary and assignment expression is written in parentheses, so the
text shows how the tree groups.
-/

namespace Scripting

def Special.text : Special → String
  | this => "this"
  | global => "global"
  | null => "null"
  | true => "true"
  | false => "false"
  | undefined => "undefined"

def UnaryOp.text : UnaryOp → String
  | not => "!"
  | bitwiseNot => "~"
  | minus => "-"
  | plus => "+"
  | preIncrement | postIncrement => "++"
  | preDecrement | postDecrement => "--"

/-- Holds for the operators that are written behind their operand. -/
def UnaryOp.isPostfix : UnaryOp → Bool
  | postIncrement | postDecrement => true
  | _ => false

def BinaryOp.text : BinaryOp → String
  | add => "+"
  | subtract => "-"
  | multiply => "*"
  | divide => "/"
  | modulo => "%"
  | equal => "=="
  | notEqual => "!="
  | less => "<"
  | lessEqual => "<="
  | greater => ">"
  | greaterEqual => ">="
  | and => "&&"
  | or => "||"

def AssignOp.text : AssignOp → String
  | assign => "="
  | add => "+="
  | subtract => "-="
  | multiply => "*="
  | divide => "/="
  | modulo => "%="

def DeclarationKind.text : DeclarationKind → String
  | letDecl => "let"
  | constDecl => "const"

def CaseLabel.text : CaseLabel → String
  | value n => "case " ++ toString n.toInt ++ ":"
  | default => "default:"

/-- A block in its braces, from the text of its items. -/
def inBraces (items : List Item) (inner : String) : String :=
  if items.isEmpty then "\x7b\x7d" else "\x7b" ++ inner ++ " \x7d"

/-- A statement in front of another one gets the `;` it needs. -/
def Stmt.terminator (s : Stmt) : String :=
  if s.requiresSemicolon then ";" else ""

mutual

def Expr.text : Expr → String
  | .integer _ value => toString value.toInt
  | .string _ text => "\"" ++ text ++ "\""
  | .identifier _ name => name
  | .special _ value => value.text
  | .member _ object name => object.text ++ "." ++ name
  | .call _ callee args => callee.text ++ "(" ++ ", ".intercalate (Expr.texts args) ++ ")"
  | .subscript _ object index => object.text ++ "[" ++ index.text ++ "]"
  | .construct _ callee args => "new " ++ callee.text ++ "(" ++ ", ".intercalate (Expr.texts args) ++ ")"
  | .unary _ op operand =>
    if op.isPostfix then "(" ++ operand.text ++ op.text ++ ")"
    else "(" ++ op.text ++ operand.text ++ ")"
  | .binary _ op left right => "(" ++ left.text ++ " " ++ op.text ++ " " ++ right.text ++ ")"
  | .assign _ op target value => "(" ++ target.text ++ " " ++ op.text ++ " " ++ value.text ++ ")"
  | .function _ definition => definition.text
  | .error .. => "<error>"

def Expr.texts : List Expr → List String
  | [] => []
  | e :: rest => e.text :: Expr.texts rest

def FunctionDef.text : FunctionDef → String
  | .mk _ name params body =>
    "function" ++ (match name with | some n => " " ++ n | none => "") ++
      "(" ++ ", ".intercalate params ++ ") " ++ inBraces body (Item.listText body)

/-- The items of a block, each with a blank in front. -/
def Item.listText : List Item → String
  | [] => ""
  | .mk label statement :: rest =>
    " " ++ (match label with | some l => l.text ++ " " | none => "") ++ statement.text ++
      statement.terminator ++ Item.listText rest

def Stmt.text : Stmt → String
  | .expression _ expr => expr.text
  | .block _ items => inBraces items (Item.listText items)
  | .ifElse _ condition thenBranch none =>
    "if (" ++ condition.text ++ ") " ++ thenBranch.text
  | .ifElse _ condition thenBranch (some elseBranch) =>
    "if (" ++ condition.text ++ ") " ++ thenBranch.text ++
      thenBranch.terminator ++ " else " ++ elseBranch.text
  | .whileLoop _ condition body => "while (" ++ condition.text ++ ") " ++ body.text
  | .forLoop _ init condition update body =>
    "for (" ++ (match init with | some s => s.text | none => "") ++ ";" ++
      (match condition with | some e => " " ++ e.text | none => "") ++ ";" ++
      (match update with | some e => " " ++ e.text | none => "") ++ ") " ++ body.text
  | .switch _ subject items => "switch (" ++ subject.text ++ ") " ++ inBraces items (Item.listText items)
  | .tryCatch _ body binding handler =>
    "try " ++ body.text ++ body.terminator ++
      " catch (" ++ binding ++ ") " ++ handler.text
  | .throwValue _ value => "throw " ++ value.text
  | .returnValue _ (some value) => "return " ++ value.text
  | .returnValue _ none => "return"
  | .breakLoop _ => "break"
  | .continueLoop _ => "continue"
  | .declare _ kind name none => kind.text ++ " " ++ name
  | .declare _ kind name (some init) => kind.text ++ " " ++ name ++ " = " ++ init.text
  | .function _ definition => definition.text
  | .error .. => "<error>"

end

/-- A statement with the `;` it needs. -/
def Stmt.closedText (s : Stmt) : String :=
  s.text ++ s.terminator

/-- The statements of a program on one line. -/
def Program.text (p : Program) : String :=
  " ".intercalate (p.statements.map (·.closedText))

end Scripting
