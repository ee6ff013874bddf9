import Scripting.Proofs.RoundTrip.Tree
import Scripting.Token.Basic

/-!
The tokens that a tree is written with, without their places.
-/

namespace Scripting

/-- A token without its place in the source. -/
structure Shape where
  kind : TokenKind
  lexeme : String
deriving DecidableEq, Repr

def Token.shape (t : Token) : Shape :=
  ⟨t.kind, t.lexeme⟩

namespace Shape

def leftParen : Shape := ⟨.leftParen, "("⟩
def rightParen : Shape := ⟨.rightParen, ")"⟩
def leftBrace : Shape := ⟨.leftBrace, "\x7b"⟩
def rightBrace : Shape := ⟨.rightBrace, "\x7d"⟩
def leftBracket : Shape := ⟨.leftBracket, "["⟩
def rightBracket : Shape := ⟨.rightBracket, "]"⟩
def comma : Shape := ⟨.comma, ","⟩
def dot : Shape := ⟨.dot, "."⟩
def colon : Shape := ⟨.colon, ":"⟩
def semicolon : Shape := ⟨.semicolon, ";"⟩
def assign : Shape := ⟨.assign, "="⟩
def minus : Shape := ⟨.minus, "-"⟩
def eof : Shape := ⟨.eof, ""⟩

def keyword (word : Keyword) : Shape := ⟨.keyword word, word.text⟩
def identifier (name : String) : Shape := ⟨.identifier, name⟩
def number (n : Int) : Shape := ⟨.number, toString n⟩
def string (text : String) : Shape := ⟨.string, text⟩

/-- A name behind a `.`, which may be a keyword. -/
def word (name : String) : Shape :=
  ⟨match Keyword.ofText? name with
    | some keyword => .keyword keyword
    | none => .identifier, name⟩

end Shape

def Special.keyword : Special → Keyword
  | .this => .thisObject
  | .global => .globalObject
  | .null => .nullValue
  | .true => .trueValue
  | .false => .falseValue
  | .undefined => .undefinedValue

def DeclarationKind.keyword : DeclarationKind → Keyword
  | .letDecl => .letDecl
  | .constDecl => .constDecl

def UnaryOp.kind : UnaryOp → TokenKind
  | .not => .bang
  | .bitwiseNot => .tilde
  | .minus => .minus
  | .plus => .plus
  | .preIncrement | .postIncrement => .plusPlus
  | .preDecrement | .postDecrement => .minusMinus

def BinaryOp.kind : BinaryOp → TokenKind
  | .add => .plus
  | .subtract => .minus
  | .multiply => .star
  | .divide => .slash
  | .modulo => .percent
  | .equal => .equalEqual
  | .notEqual => .bangEqual
  | .less => .less
  | .lessEqual => .lessEqual
  | .greater => .greater
  | .greaterEqual => .greaterEqual
  | .and => .andAnd
  | .or => .orOr

def AssignOp.kind : AssignOp → TokenKind
  | .assign => .assign
  | .add => .plusAssign
  | .subtract => .minusAssign
  | .multiply => .starAssign
  | .divide => .slashAssign
  | .modulo => .percentAssign

def UnaryOp.shape (op : UnaryOp) : Shape := ⟨op.kind, op.text⟩
def BinaryOp.shape (op : BinaryOp) : Shape := ⟨op.kind, op.text⟩
def AssignOp.shape (op : AssignOp) : Shape := ⟨op.kind, op.text⟩

/-- A label of a `switch` section. A negative number is written with a sign. -/
def CaseLabel.shapes : CaseLabel → List Shape
  | .value n =>
    .keyword .caseLabel ::
      (if n.toInt < 0 then [.minus, .number (-n.toInt)] else [.number n.toInt]) ++ [.colon]
  | .default => [.keyword .defaultLabel, .colon]

def Stmt.terminatorShapes (s : Stmt) : List Shape :=
  if s.requiresSemicolon then [.semicolon] else []

/-- Lists with a comma between them. -/
def Shape.listed : List (List Shape) → List Shape
  | [] => []
  | [shapes] => shapes
  | shapes :: next :: rest => shapes ++ .comma :: Shape.listed (next :: rest)

def Shape.function (name : Option String) (params : List String) (body : List Shape) : List Shape :=
  .keyword .function :: name.toList.map .identifier ++
    .leftParen :: Shape.listed (params.map fun p => [.identifier p]) ++ .rightParen ::
      .leftBrace :: body ++ [.rightBrace]

mutual

def Expr.shapes : Expr → List Shape
  | .integer _ value => [.number value.toInt]
  | .string _ text => [.string text]
  | .identifier _ name => [.identifier name]
  | .special _ value => [.keyword value.keyword]
  | .member _ object name => object.shapes ++ [.dot, .word name]
  | .call _ callee args =>
    callee.shapes ++ .leftParen :: Shape.listed (Expr.shapesAll args) ++ [.rightParen]
  | .subscript _ object index =>
    object.shapes ++ .leftBracket :: index.shapes ++ [.rightBracket]
  | .construct _ callee args =>
    .keyword .newObject :: callee.shapes ++
      .leftParen :: Shape.listed (Expr.shapesAll args) ++ [.rightParen]
  | .unary _ op operand =>
    if op.isPostfix then .leftParen :: operand.shapes ++ [op.shape, .rightParen]
    else .leftParen :: op.shape :: operand.shapes ++ [.rightParen]
  | .binary _ op left right =>
    .leftParen :: left.shapes ++ op.shape :: right.shapes ++ [.rightParen]
  | .assign _ op target value =>
    .leftParen :: target.shapes ++ op.shape :: value.shapes ++ [.rightParen]
  | .function _ definition => definition.shapes
  | .error .. => []

def Expr.shapesAll : List Expr → List (List Shape)
  | [] => []
  | e :: rest => e.shapes :: Expr.shapesAll rest

def FunctionDef.shapes : FunctionDef → List Shape
  | .mk _ name params body => Shape.function name params (Item.shapesAll body)

def Item.shapesAll : List Item → List Shape
  | [] => []
  | .mk label statement :: rest =>
    (match label with | some l => l.shapes | none => []) ++ statement.shapes ++
      statement.terminatorShapes ++ Item.shapesAll rest

def Stmt.shapes : Stmt → List Shape
  | .expression _ expr => expr.shapes
  | .block _ items => .leftBrace :: Item.shapesAll items ++ [.rightBrace]
  | .ifElse _ condition thenBranch none =>
    .keyword .ifElse :: .leftParen :: condition.shapes ++ .rightParen :: thenBranch.shapes
  | .ifElse _ condition thenBranch (some elseBranch) =>
    .keyword .ifElse :: .leftParen :: condition.shapes ++ .rightParen :: thenBranch.shapes ++
      thenBranch.terminatorShapes ++ .keyword .elseBranch :: elseBranch.shapes
  | .whileLoop _ condition body =>
    .keyword .whileLoop :: .leftParen :: condition.shapes ++ .rightParen :: body.shapes
  | .forLoop _ init condition update body =>
    .keyword .forLoop :: .leftParen :: (match init with | some s => s.shapes | none => []) ++
      .semicolon :: (match condition with | some e => e.shapes | none => []) ++
      .semicolon :: (match update with | some e => e.shapes | none => []) ++
      .rightParen :: body.shapes
  | .switch _ subject items =>
    .keyword .switch :: .leftParen :: subject.shapes ++ .rightParen ::
      .leftBrace :: Item.shapesAll items ++ [.rightBrace]
  | .tryCatch _ body binding handler =>
    .keyword .tryBlock :: body.shapes ++ body.terminatorShapes ++ .keyword .catchBlock ::
      .leftParen :: .identifier binding :: .rightParen :: handler.shapes
  | .throwValue _ value => .keyword .throwValue :: value.shapes
  | .returnValue _ (some value) => .keyword .returnValue :: value.shapes
  | .returnValue _ none => [.keyword .returnValue]
  | .breakLoop _ => [.keyword .breakLoop]
  | .continueLoop _ => [.keyword .continueLoop]
  | .declare _ kind name none => [.keyword kind.keyword, .identifier name]
  | .declare _ kind name (some init) =>
    .keyword kind.keyword :: .identifier name :: .assign :: init.shapes
  | .function _ definition => definition.shapes
  | .error .. => []

end

theorem Expr.shapesAll_eq (es : List Expr) : Expr.shapesAll es = es.map Expr.shapes := by
  induction es with
  | nil => rfl
  | cons e rest ih => rw [Expr.shapesAll, ih, List.map_cons]

theorem Item.shapesAll_cons (label : Option CaseLabel) (s : Stmt) (rest : List Item) :
    Item.shapesAll (.mk label s :: rest) = label.elim [] CaseLabel.shapes ++
      (s.shapes ++ (s.terminatorShapes ++ Item.shapesAll rest)) := by
  cases label <;> simp [Item.shapesAll]

theorem Stmt.shapes_forLoop (span : Span) (init : Option Stmt) (condition update : Option Expr)
    (body : Stmt) :
    (Stmt.forLoop span init condition update body).shapes =
      .keyword .forLoop :: .leftParen :: init.elim [] Stmt.shapes ++ .semicolon ::
        condition.elim [] Expr.shapes ++ .semicolon :: update.elim [] Expr.shapes ++
        .rightParen :: body.shapes := by
  cases init <;> cases condition <;> cases update <;> simp only [Stmt.shapes, Option.elim]

/-- A statement with the `;` it needs. -/
def Stmt.closedShapes (s : Stmt) : List Shape :=
  s.shapes ++ s.terminatorShapes

def Program.shapes (p : Program) : List Shape :=
  p.statements.flatMap Stmt.closedShapes

end Scripting
