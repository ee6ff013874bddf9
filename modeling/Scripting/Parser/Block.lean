import Scripting.Parser.Basic
import Scripting.Text.Numeral

/-!
Blocks, `switch` bodies, and functions behind their name.
-/

namespace Scripting.Parser

/-- The value of a number token. -/
def integerValue (token : Token) : Parser Int64 :=
  match Text.readLiteral? token.lexeme.toList with
  | some value => return value
  | none => failAt token.span "Invalid integer literal"

/-- The label in front of an item of a `switch` body, if there is one. -/
def caseLabel : Parser (Option CaseLabel) := do
  match ← nextKind with
  | .keyword .defaultLabel =>
    let _ ← advance
    let _ ← expect .colon "Expected ':' after 'default'"
    return some .default
  | .keyword .caseLabel =>
    let _ ← advance
    let negative ← accept .minus
    let token ← expect .number "Expected integer literal in 'case' label"
    let value ← integerValue token
    let _ ← expect .colon "Expected ':' after 'case' label"
    return some (.value (if negative then -value else value))
  | _ => return none

/-- The items of a block up to its closing brace. -/
def items (g : Grammar) (labels : Bool) : Nat → Parser (List Item)
  | 0 => exhausted
  | limit + 1 => do
    skipSemicolons
    match ← nextKind with
    | .rightBrace =>
      let _ ← advance
      return []
    | .eof => failHere "Unclosed block statement"
    | _ =>
      let label ← if labels then caseLabel else pure none
      let statement ← g.statement
      if statement.requiresSemicolon then
        match ← nextKind with
        | .semicolon =>
          let _ ← advance
          let rest ← items g labels limit
          return .mk label statement :: rest
        | .rightBrace =>
          let _ ← advance
          return [.mk label statement]
        | _ => failHere "Expected ';' after statement"
      else
        let rest ← items g labels limit
        return .mk label statement :: rest

/-- A block in its braces; in a `switch` body the items may have labels. -/
def block (g : Grammar) (labels : Bool) : Parser (List Item) := do
  let _ ← expect .leftBrace "Expected '\x7b'"
  bounded (items g labels)

/-- The names of parameters up to the closing parenthesis. -/
def params : Nat → Parser (List String)
  | 0 => exhausted
  | limit + 1 => do
    let name ← expectName "Expected argument name"
    if ← accept .comma then
      let rest ← params limit
      return name :: rest
    else
      let _ ← expect .rightParen "Expected ',' or ')' in argument list"
      return [name]

/-- The parameters of a function behind the opening parenthesis. -/
def paramList : Parser (List String) := do
  if ← accept .rightParen then return [] else bounded params

/-- A function behind its name: parameters and body. -/
def functionRest (g : Grammar) (name : Option String) (start : Span) : Parser FunctionDef := do
  let _ ← expect .leftParen "Expected '('"
  let names ← paramList
  match ← nextKind with
  | .leftBrace =>
    let body ← block g false
    let span ← spanFrom start
    return .mk span name names body
  | _ => failHere "Expected function body"

end Scripting.Parser
