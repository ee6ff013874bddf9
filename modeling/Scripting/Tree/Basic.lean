import Scripting.Source.Diagnostic

/-!
Syntax trees: expressions, statements and programs.

Every node carries the span it was read from. A node that could not be read is an `error` node; a
tree that was read without errors has none.
-/

namespace Scripting

/-- What could not be read, and where. -/
structure ParseError where
  span : Span
  message : String
deriving DecidableEq, Repr, Inhabited

def ParseError.toDiagnostic (e : ParseError) : Diagnostic :=
  ⟨.parser, e.message, some e.span⟩

/-- The values that have a keyword of their own. -/
inductive Special where
  | this
  | global
  | null
  | true
  | false
  | undefined
deriving DecidableEq, Repr, Inhabited

inductive UnaryOp where
  | not
  | bitwiseNot
  | minus
  | plus
  | preIncrement
  | preDecrement
  | postIncrement
  | postDecrement
deriving DecidableEq, Repr, Inhabited

inductive BinaryOp where
  | add
  | subtract
  | multiply
  | divide
  | modulo
  | equal
  | notEqual
  | less
  | lessEqual
  | greater
  | greaterEqual
  | and
  | or
deriving DecidableEq, Repr, Inhabited

inductive AssignOp where
  | assign
  | add
  | subtract
  | multiply
  | divide
  | modulo
deriving DecidableEq, Repr, Inhabited

inductive DeclarationKind where
  | letDecl
  | constDecl
deriving DecidableEq, Repr, Inhabited

/-- The label of a section in a `switch` body. -/
inductive CaseLabel where
  | value (n : Int64)
  | default
deriving DecidableEq, Repr, Inhabited

mutual

inductive Expr where
  | integer (span : Span) (value : Int64)
  | string (span : Span) (text : String)
  | identifier (span : Span) (name : String)
  | special (span : Span) (value : Special)
  | member (span : Span) (object : Expr) (name : String)
  | call (span : Span) (callee : Expr) (args : List Expr)
  | subscript (span : Span) (object index : Expr)
  | construct (span : Span) (callee : Expr) (args : List Expr)
  | unary (span : Span) (op : UnaryOp) (operand : Expr)
  | binary (span : Span) (op : BinaryOp) (left right : Expr)
  | assign (span : Span) (op : AssignOp) (target value : Expr)
  | function (span : Span) (definition : FunctionDef)
  | error (span : Span) (errors : List ParseError)

/-- A function as written: an optional name, parameters, and the items of its body. -/
inductive FunctionDef where
  | mk (span : Span) (name : Option String) (params : List String) (body : List Item)

/-- A statement in a block, with the label in front of it if the block is a `switch` body. -/
inductive Item where
  | mk (label : Option CaseLabel) (statement : Stmt)

inductive Stmt where
  | expression (span : Span) (expr : Expr)
  | block (span : Span) (items : List Item)
  | ifElse (span : Span) (condition : Expr) (thenBranch : Stmt) (elseBranch : Option Stmt)
  | whileLoop (span : Span) (condition : Expr) (body : Stmt)
  | forLoop (span : Span) (init : Option Stmt) (condition update : Option Expr) (body : Stmt)
  | switch (span : Span) (subject : Expr) (items : List Item)
  | tryCatch (span : Span) (body : Stmt) (binding : String) (handler : Stmt)
  | throwValue (span : Span) (value : Expr)
  | returnValue (span : Span) (value : Option Expr)
  | breakLoop (span : Span)
  | continueLoop (span : Span)
  | declare (span : Span) (kind : DeclarationKind) (name : String) (init : Option Expr)
  | function (span : Span) (definition : FunctionDef)
  | error (span : Span) (errors : List ParseError)

end

instance : Inhabited Expr := ⟨.error {} []⟩
instance : Inhabited Stmt := ⟨.error {} []⟩
instance : Inhabited Item := ⟨.mk none default⟩
instance : Inhabited FunctionDef := ⟨.mk {} none [] []⟩

namespace Expr

def span : Expr → Span
  | integer s _ | string s _ | identifier s _ | special s _ | member s _ _ | call s _ _
  | subscript s _ _ | construct s _ _ | unary s _ _ | binary s _ _ _ | assign s _ _ _
  | function s _ | error s _ => s

/-- The same node read from another span. -/
def withSpan (s : Span) : Expr → Expr
  | integer _ value => integer s value
  | string _ text => string s text
  | identifier _ name => identifier s name
  | special _ value => special s value
  | member _ object name => member s object name
  | call _ callee args => call s callee args
  | subscript _ object index => subscript s object index
  | construct _ callee args => construct s callee args
  | unary _ op operand => unary s op operand
  | binary _ op left right => binary s op left right
  | assign _ op target value => assign s op target value
  | function _ definition => function s definition
  | error _ errors => error s errors

def isError : Expr → Bool
  | error .. => Bool.true
  | _ => Bool.false

def errors : Expr → List ParseError
  | error _ errors => errors
  | _ => []

end Expr

namespace FunctionDef

def span : FunctionDef → Span
  | mk span _ _ _ => span

def name : FunctionDef → Option String
  | mk _ name _ _ => name

def params : FunctionDef → List String
  | mk _ _ params _ => params

def body : FunctionDef → List Item
  | mk _ _ _ body => body

end FunctionDef

namespace Item

def label : Item → Option CaseLabel
  | mk label _ => label

def statement : Item → Stmt
  | mk _ statement => statement

end Item

namespace Stmt

def span : Stmt → Span
  | expression s _ | block s _ | ifElse s _ _ _ | whileLoop s _ _ | forLoop s _ _ _ _
  | switch s _ _ | tryCatch s _ _ _ | throwValue s _ | returnValue s _ | breakLoop s
  | continueLoop s | declare s _ _ _ | function s _ | error s _ => s

def isError : Stmt → Bool
  | error .. => true
  | _ => false

def errors : Stmt → List ParseError
  | error _ errors => errors
  | _ => []

/-- A statement that ends with a brace needs no `;` behind it; a statement that ends with another
statement needs one if that one does. -/
def requiresSemicolon : Stmt → Bool
  | block .. | switch .. | function .. | error .. => false
  | ifElse _ _ thenBranch none => thenBranch.requiresSemicolon
  | ifElse _ _ _ (some elseBranch) => elseBranch.requiresSemicolon
  | whileLoop _ _ body => body.requiresSemicolon
  | forLoop _ _ _ _ body => body.requiresSemicolon
  | tryCatch _ _ _ handler => handler.requiresSemicolon
  | _ => true

/-- Holds for a statement that binds a name in the scope it runs in. -/
def declares : Stmt → Bool
  | declare .. | function .. => true
  | _ => false

end Stmt

/-- A block whose items bind a name runs in a scope of its own. -/
def needsScope (items : List Item) : Bool :=
  items.any (·.statement.declares)

/-- The statements of a source text, up to the first that could not be read. -/
structure Program where
  statements : List Stmt := []
  errors : List ParseError := []
deriving Inhabited

namespace Program

def isError (p : Program) : Bool :=
  !p.errors.isEmpty

def diagnostics (p : Program) : List Diagnostic :=
  p.errors.map (·.toDiagnostic)

end Program

end Scripting
