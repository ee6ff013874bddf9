import Scripting.Token.Basic
import Scripting.Tree.Basic

/-!
Parsers over tokens.

A parser takes a cursor and either gives a value and the cursor behind it, or fails. A failure says
what could not be read, and the span of the error node that stands for it; the cursor stays where
reading stopped.
-/

namespace Scripting

/-- A place in a list of tokens: the token that comes next, those behind it with their number, and the
span of the token in front. -/
structure Cursor where
  last : Span
  next : Token
  rest : List Token
  left : Nat := rest.length
  left_eq : left = rest.length := by rfl

namespace Cursor

/-- The cursor at the start of a list of tokens. -/
def ofTokens : List Token → Cursor
  | [] => { last := {}, next := Token.eof {}, rest := [] }
  | t :: rest => { last := t.span, next := t, rest }

instance : Inhabited Cursor := ⟨ofTokens []⟩

/-- The cursor behind the next token. It never moves past the end of the text. -/
def advance (c : Cursor) : Cursor :=
  match h : c.rest with
  | [] => c
  | t :: rest =>
    if c.next.kind = .eof then c
    else
      { last := c.next.span
        next := t
        rest
        left := c.left - 1
        left_eq := by rw [c.left_eq, h, List.length_cons, Nat.add_sub_cancel] }

/-- The cursor in front of token number `n`, or of the last token. -/
def drop : Nat → Cursor → Cursor
  | 0, c => c
  | n + 1, c => drop n c.advance

/-- The number of tokens in front of a cursor that stands in a list of `total` tokens. -/
def offset (c : Cursor) (total : Nat) : Nat :=
  total - 1 - c.left

def skipSemicolonsUpTo : Nat → Cursor → Cursor
  | 0, c => c
  | n + 1, c => if c.next.kind = .semicolon then skipSemicolonsUpTo n c.advance else c

/-- The cursor behind any number of `;`. -/
def skipSemicolons (c : Cursor) : Cursor :=
  skipSemicolonsUpTo c.left c

end Cursor

/-- Why a parser failed, and the span of the error node. -/
structure Failure where
  span : Span
  errors : List ParseError
deriving Inhabited

inductive Reply (α : Type) where
  | ok (value : α) (cursor : Cursor)
  | fail (failure : Failure) (cursor : Cursor)

def Parser (α : Type) : Type :=
  Cursor → Reply α

namespace Parser

variable {α β : Type}

@[inline]
def result (a : α) : Parser α :=
  fun c => .ok a c

@[inline]
def andThen (p : Parser α) (f : α → Parser β) : Parser β :=
  fun c =>
    match p c with
    | .ok a c' => f a c'
    | .fail e c' => .fail e c'

instance : Monad Parser where
  pure := result
  bind := andThen

/-- Fails with an error node at a span. -/
def failAt (span : Span) (message : String) : Parser α :=
  fun c => .fail ⟨span, [⟨span, message⟩]⟩ c

/-- Fails with an error node at the next token. -/
def failHere (message : String) : Parser α :=
  fun c => failAt c.next.span message c

/-- The answer of a parser that ran into the bound of a loop or of the nesting. The bounds are chosen
from the number of tokens, so that this does not happen. -/
def exhausted : Parser α :=
  failHere "Nesting too deep"

/-- Moves the error node of a failure to `span`; the errors stay where they are. -/
def blame (span : Span) (p : Parser α) : Parser α :=
  fun c =>
    match p c with
    | .ok a c' => .ok a c'
    | .fail e c' => .fail ⟨span, e.errors⟩ c'

/-- Runs a loop that takes a token in every turn, with the number of tokens left as its bound. -/
def bounded (loop : Nat → Parser α) : Parser α :=
  fun c => loop (c.left + 1) c

def peek : Parser Token :=
  fun c => .ok c.next c

def nextKind : Parser TokenKind :=
  fun c => .ok c.next.kind c

/-- The kind of the token behind the next one. -/
def secondKind : Parser TokenKind :=
  fun c => .ok ((c.rest.head?.map (·.kind)).getD .eof) c

def location : Parser Span :=
  fun c => .ok c.next.span c

/-- The span from `start` to the last token taken. -/
def spanFrom (start : Span) : Parser Span :=
  fun c => .ok (start.join c.last) c

/-- Takes the next token. -/
def advance : Parser Token :=
  fun c => .ok c.next c.advance

def skipSemicolons : Parser Unit :=
  fun c => .ok () c.skipSemicolons

/-- Takes the next token if it is of the given kind. -/
def accept (kind : TokenKind) : Parser Bool :=
  fun c => if c.next.kind = kind then .ok true c.advance else .ok false c

/-- Takes the next token, which has to be of the given kind. -/
def expect (kind : TokenKind) (message : String) : Parser Token :=
  fun c => if c.next.kind = kind then advance c else failHere message c

def expectName (message : String) : Parser String := do
  let token ← expect .identifier message
  return token.lexeme

end Parser

/-- The parsers that the productions of the language call at a deeper level of nesting. -/
structure Grammar where
  expression : Parser Expr
  operand : Parser Expr
  statement : Parser Stmt

end Scripting
