import Scripting.Source.Diagnostic
import Scripting.Text.Blank
import Scripting.Text.Numeral
import Scripting.Token.Basic

/-!
Reading a source text as tokens.

Between two tokens there may be blanks and comments; `splitGap` takes them off. `Lexeme.read?` takes
the longest token off the front of the remaining text. The only text that cannot be read is one with
a string literal that is never closed: every other unknown character is an `invalid` token.
-/

namespace Scripting

namespace Lexeme

def isWordStart (c : Char) : Bool :=
  ('a' ≤ c && c ≤ 'z') || ('A' ≤ c && c ≤ 'Z') || c = '_'

def isWordPart (c : Char) : Bool :=
  isWordStart c || ('0' ≤ c && c ≤ '9')

end Lexeme

/-- A token taken off the front of a text: its characters as written, those of its lexeme, and the
text behind it. -/
structure Lexeme where
  kind : TokenKind
  written : List Char
  lexeme : List Char
  rest : List Char

namespace Lexeme

/-- A token whose lexeme is what is written. -/
def plain (kind : TokenKind) (written rest : List Char) : Lexeme :=
  ⟨kind, written, written, rest⟩

/-- An identifier or a keyword that starts with `c`. -/
def word (c : Char) (text : List Char) : Lexeme :=
  let written := c :: text.takeWhile isWordPart
  let kind := match Keyword.ofText? (String.ofList written) with
    | some keyword => .keyword keyword
    | none => .identifier
  plain kind written (text.dropWhile isWordPart)

/-- The digits of `base` at the front of a text, behind what is already taken. -/
def digits (base : Nat) (taken text : List Char) : Lexeme :=
  plain .number (taken ++ text.takeWhile (Text.isDigitOf base))
    (text.dropWhile (Text.isDigitOf base))

/-- A decimal number, or a hexadecimal one after `0x`, that starts with `c`. -/
def number (c : Char) (text : List Char) : Lexeme :=
  match c, text with
  | '0', 'x' :: rest => digits 16 ['0', 'x'] rest
  | '0', 'X' :: rest => digits 16 ['0', 'X'] rest
  | _, _ => digits 10 [c] text

/-- A string literal behind its opening quote. There are no escapes. -/
def quoted? (quote : Char) (text : List Char) : Option Lexeme :=
  let body := text.takeWhile (· ≠ quote)
  match text.dropWhile (· ≠ quote) with
  | [] => none
  | close :: rest => some ⟨.string, quote :: body ++ [close], body, rest⟩

/-- The operators of two characters. -/
def pair? : Char → Char → Option TokenKind
  | '+', '+' => some .plusPlus
  | '+', '=' => some .plusAssign
  | '-', '-' => some .minusMinus
  | '-', '=' => some .minusAssign
  | '*', '=' => some .starAssign
  | '/', '=' => some .slashAssign
  | '%', '=' => some .percentAssign
  | '=', '=' => some .equalEqual
  | '!', '=' => some .bangEqual
  | '<', '=' => some .lessEqual
  | '>', '=' => some .greaterEqual
  | '&', '&' => some .andAnd
  | '|', '|' => some .orOr
  | _, _ => none

/-- The operators of one character; any other character is an invalid token. -/
def single : Char → TokenKind
  | '(' => .leftParen
  | ')' => .rightParen
  | '{' => .leftBrace
  | '}' => .rightBrace
  | '[' => .leftBracket
  | ']' => .rightBracket
  | ',' => .comma
  | '.' => .dot
  | ':' => .colon
  | ';' => .semicolon
  | '~' => .tilde
  | '+' => .plus
  | '-' => .minus
  | '*' => .star
  | '/' => .slash
  | '%' => .percent
  | '=' => .assign
  | '!' => .bang
  | '<' => .less
  | '>' => .greater
  | _ => .invalid

/-- An operator or an invalid character that starts with `c`. -/
def operator (c : Char) (text : List Char) : Lexeme :=
  match text with
  | [] => plain (single c) [c] []
  | next :: rest =>
    match pair? c next with
    | some kind => plain kind [c, next] rest
    | none => plain (single c) [c] text

/-- The token at the front of `c :: text`, or `none` at a quote that is never closed. -/
def read? (c : Char) (text : List Char) : Option Lexeme :=
  if isWordStart c then some (word c text)
  else if Text.isDigitOf 10 c then some (number c text)
  else if c = '"' || c = '\'' then quoted? c text
  else some (operator c text)

/-- The token with its place in the source. -/
def token (piece : Lexeme) (start : Location) : Token :=
  ⟨piece.kind, String.ofList piece.lexeme, ⟨start, byteLength piece.written⟩⟩

end Lexeme

/-- Splits the blanks and comments off the front of a text. A comment runs from `//` to the end of
its line. -/
def splitGap (inComment : Bool) : List Char → List Char × List Char
  | [] => ([], [])
  | c :: rest =>
    let isGap :=
      if inComment then true
      else Text.isBlank c || (c = '/' && rest.head? = some '/')
    if isGap then
      let (gap, behind) := splitGap (if inComment then c ≠ '\n' else c = '/') rest
      (c :: gap, behind)
    else ([], c :: rest)

/-- What is reported for a string literal that starts at `start` and is never closed. -/
def unterminatedString (start : Location) (text : List Char) : Diagnostic :=
  ⟨.lexer, "Unterminated string literal", some ⟨start, byteLength text⟩⟩

/-- The tokens of a text that starts at `p`. A token takes at least one character, so a `limit` above
the length of the text is never used up. -/
def tokensFrom : Nat → Location → List Char → Except Diagnostic (List Token)
  | 0, p, _ => .ok [Token.eof p]
  | limit + 1, p, text =>
    let (gap, rest) := splitGap false text
    let start := p.after gap
    match rest with
    | [] => .ok [Token.eof start]
    | c :: behind =>
      match Lexeme.read? c behind with
      | none => .error (unterminatedString start rest)
      | some piece =>
        match tokensFrom limit (start.after piece.written) piece.rest with
        | .ok tokens => .ok (piece.token start :: tokens)
        | .error d => .error d

/-- The tokens of a source text, the last of them `eof`. -/
def tokenize (source : String) : Except Diagnostic (List Token) :=
  tokensFrom (source.toList.length + 1) {} source.toList

end Scripting
