import Scripting.Source.Span

/-!
Tokens: the words, literals and operators of a source text.
-/

namespace Scripting

/-- The reserved words. -/
inductive Keyword where
  | letDecl
  | constDecl
  | function
  | returnValue
  | ifElse
  | elseBranch
  | whileLoop
  | forLoop
  | switch
  | caseLabel
  | defaultLabel
  | breakLoop
  | continueLoop
  | tryBlock
  | catchBlock
  | throwValue
  | newObject
  | thisObject
  | globalObject
  | nullValue
  | trueValue
  | falseValue
  | undefinedValue
deriving DecidableEq, Repr, Inhabited

namespace Keyword

def text : Keyword → String
  | letDecl => "let"
  | constDecl => "const"
  | function => "function"
  | returnValue => "return"
  | ifElse => "if"
  | elseBranch => "else"
  | whileLoop => "while"
  | forLoop => "for"
  | switch => "switch"
  | caseLabel => "case"
  | defaultLabel => "default"
  | breakLoop => "break"
  | continueLoop => "continue"
  | tryBlock => "try"
  | catchBlock => "catch"
  | throwValue => "throw"
  | newObject => "new"
  | thisObject => "this"
  | globalObject => "global"
  | nullValue => "null"
  | trueValue => "true"
  | falseValue => "false"
  | undefinedValue => "undefined"

def all : List Keyword :=
  [letDecl, constDecl, function, returnValue, ifElse, elseBranch, whileLoop, forLoop, switch,
    caseLabel, defaultLabel, breakLoop, continueLoop, tryBlock, catchBlock, throwValue, newObject,
    thisObject, globalObject, nullValue, trueValue, falseValue, undefinedValue]

/-- The keyword with the given text. -/
def ofText? (text : String) : Option Keyword :=
  all.find? (·.text == text)

end Keyword

inductive TokenKind where
  | identifier
  | number
  | string
  | keyword (word : Keyword)
  | leftParen
  | rightParen
  | leftBrace
  | rightBrace
  | leftBracket
  | rightBracket
  | comma
  | dot
  | colon
  | semicolon
  | assign
  | plusAssign
  | minusAssign
  | starAssign
  | slashAssign
  | percentAssign
  | plus
  | minus
  | star
  | slash
  | percent
  | plusPlus
  | minusMinus
  | bang
  | tilde
  | bangEqual
  | equalEqual
  | less
  | lessEqual
  | greater
  | greaterEqual
  | andAnd
  | orOr
  | invalid
  | eof
deriving DecidableEq, Repr, Inhabited

/-- A token. The lexeme of a string literal is its body; its span covers the quotes as well. -/
structure Token where
  kind : TokenKind
  lexeme : String
  span : Span
deriving DecidableEq, Repr, Inhabited

/-- The token that marks the end of a text. -/
def Token.eof (p : Location) : Token :=
  ⟨.eof, "", ⟨p, 0⟩⟩

end Scripting
