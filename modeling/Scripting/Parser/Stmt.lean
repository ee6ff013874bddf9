import Scripting.Parser.Block

/-!
Statements. The next token decides which kind of statement is read; what no other kind claims is an
expression. An error inside a statement makes an error node at the first token of the statement.
-/

namespace Scripting.Parser

/-- A parenthesized expression behind a keyword. -/
def condition (g : Grammar) (openMessage closeMessage : String) : Parser Expr := do
  let _ ← expect .leftParen openMessage
  let value ← g.expression
  let _ ← expect .rightParen closeMessage
  return value

def blockStatement (g : Grammar) (start : Span) : Parser Stmt := do
  let content ← block g false
  let span ← spanFrom start
  return .block span content

/-- Takes the `else` of an `if`, which may stand behind the `;` of the first branch. A `;` that no
`else` follows is not taken. -/
def acceptElse (thenBranch : Stmt) : Parser Bool := do
  match ← nextKind, ← secondKind with
  | .keyword .elseBranch, _ => accept (.keyword .elseBranch)
  | .semicolon, .keyword .elseBranch =>
    if thenBranch.requiresSemicolon then
      let _ ← advance
      accept (.keyword .elseBranch)
    else return false
  | _, _ => return false

def elseBranch (g : Grammar) (thenBranch : Stmt) : Parser (Option Stmt) := do
  if ← acceptElse thenBranch then
    let branch ← g.statement
    return some branch
  else return none

def ifStatement (g : Grammar) (start : Span) : Parser Stmt := do
  let _ ← advance
  let test ← condition g "Expected '(' after 'if'" "Expected ')' after 'if' condition"
  let thenBranch ← g.statement
  let other ← elseBranch g thenBranch
  let span ← spanFrom start
  return .ifElse span test thenBranch other

def whileStatement (g : Grammar) (start : Span) : Parser Stmt := do
  let _ ← advance
  let test ← condition g "Expected '(' after 'while'" "Expected ')' after 'while' condition"
  let body ← g.statement
  let span ← spanFrom start
  return .whileLoop span test body

/-- A declaration behind its keyword. -/
def declarationRest (g : Grammar) (kind : DeclarationKind) (start : Span) : Parser Stmt := do
  let _ ← advance
  let name ← expectName "Expected variable name"
  match ← nextKind with
  | .assign =>
    let _ ← advance
    let init ← g.expression
    let span ← spanFrom start
    return .declare span kind name (some init)
  | .semicolon | .rightBrace | .eof =>
    match kind with
    | .constDecl => failHere "Expected initializer for 'const' declaration"
    | .letDecl =>
      let span ← spanFrom start
      return .declare span kind name none
  | _ => failHere "Invalid operator for initializer, expected '='"

def expressionStatement (g : Grammar) : Parser Stmt := do
  let expr ← g.expression
  return .expression expr.span expr

/-- The first clause of a `for`: a declaration or an expression. -/
def forInit (g : Grammar) : Parser (Option Stmt) := do
  let start ← location
  match ← nextKind with
  | .semicolon =>
    let _ ← advance
    return none
  | kind =>
    let init ← match kind with
      | .keyword .letDecl => declarationRest g .letDecl start
      | .keyword .constDecl => declarationRest g .constDecl start
      | _ => expressionStatement g
    let _ ← expect .semicolon "Expected ';' after 'for' initializer"
    return some init

/-- A clause of a `for` that may be left out, up to the token that ends it. -/
def forClause (g : Grammar) (close : TokenKind) (message : String) : Parser (Option Expr) := do
  if ← accept close then return none
  else
    let value ← g.expression
    let _ ← expect close message
    return some value

def forStatement (g : Grammar) (start : Span) : Parser Stmt := do
  let _ ← advance
  let _ ← expect .leftParen "Expected '(' after 'for'"
  let init ← forInit g
  let test ← forClause g .semicolon "Expected ';' after 'for' condition"
  let update ← forClause g .rightParen "Expected ')' after 'for' clauses"
  let body ← g.statement
  let span ← spanFrom start
  return .forLoop span init test update body

def switchStatement (g : Grammar) (start : Span) : Parser Stmt := do
  let _ ← advance
  let subject ← condition g "Expected '(' after 'switch'" "Expected ')' after 'switch' value"
  match ← nextKind with
  | .leftBrace =>
    let body ← block g true
    let span ← spanFrom start
    return .switch span subject body
  | _ => failHere "Expected '\x7b' after 'switch' value"

def tryStatement (g : Grammar) (start : Span) : Parser Stmt := do
  let _ ← advance
  let body ← g.statement
  if body.requiresSemicolon then
    let _ ← accept .semicolon
  let _ ← expect (.keyword .catchBlock) "Expected 'catch' after 'try' body"
  let _ ← expect .leftParen "Expected '(' after 'catch'"
  let binding ← expectName "Expected variable name in 'catch'"
  let _ ← expect .rightParen "Expected ')' after 'catch' variable"
  let handler ← g.statement
  let span ← spanFrom start
  return .tryCatch span body binding handler

def throwStatement (g : Grammar) (start : Span) : Parser Stmt := do
  let _ ← advance
  let value ← g.expression
  let span ← spanFrom start
  return .throwValue span value

def returnStatement (g : Grammar) (start : Span) : Parser Stmt := do
  let _ ← advance
  match ← nextKind with
  | .semicolon | .rightBrace | .eof => return .returnValue start none
  | _ =>
    let value ← g.expression
    let span ← spanFrom start
    return .returnValue span (some value)

/-- A function with a name, behind the keyword, is a declaration. -/
def functionStatement (g : Grammar) (start : Span) : Parser Stmt := do
  let _ ← advance
  let token ← advance
  let definition ← functionRest g (some token.lexeme) start
  let span ← spanFrom start
  return .function span definition

/-- The statement that the next token calls for. -/
def statementOf (g : Grammar) (start : Span) : Parser Stmt := do
  match ← nextKind with
  | .leftBrace => blockStatement g start
  | .keyword .ifElse => ifStatement g start
  | .keyword .whileLoop => whileStatement g start
  | .keyword .forLoop => forStatement g start
  | .keyword .switch => switchStatement g start
  | .keyword .tryBlock => tryStatement g start
  | .keyword .throwValue => throwStatement g start
  | .keyword .returnValue => returnStatement g start
  | .keyword .breakLoop =>
    let _ ← advance
    return .breakLoop start
  | .keyword .continueLoop =>
    let _ ← advance
    return .continueLoop start
  | .keyword .letDecl => declarationRest g .letDecl start
  | .keyword .constDecl => declarationRest g .constDecl start
  | .keyword .function =>
    match ← secondKind with
    | .identifier => functionStatement g start
    | _ => expressionStatement g
  | _ => expressionStatement g

def statement (g : Grammar) : Parser Stmt :=
  fun c => blame c.next.span (statementOf g c.next.span) c

end Scripting.Parser
