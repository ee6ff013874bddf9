import Scripting.Parser.Expr
import Scripting.Parser.Stmt
import Scripting.Token.Lexer

/-!
Programs, and the grammar as a whole.

The productions call each other through a `Grammar`; `Grammar.ofDepth n` allows `n` such calls inside
each other. Between a call of an expression from a statement and the next call at least one token is
taken, so twice the number of tokens is deep enough for any text.
-/

namespace Scripting

namespace Grammar

/-- The grammar that refuses everything. -/
def none : Grammar :=
  ⟨Parser.exhausted, Parser.exhausted, Parser.exhausted⟩

/-- The levels are made when they are entered, so their number costs nothing. -/
def ofDepth : Nat → Grammar
  | 0 => none
  | n + 1 =>
    ⟨fun c => Parser.assignment (ofDepth n) c, fun c => Parser.unary (ofDepth n) c,
      fun c => Parser.statement (ofDepth n) c⟩

/-- The grammar that is deep enough for the tokens from a cursor on. -/
def forCursor (c : Cursor) : Grammar :=
  ofDepth (2 * c.left + 4)

end Grammar

namespace Parser

/-- The statements up to the end of the text or the first error, and where reading stopped. -/
def programFrom (g : Grammar) : Nat → Cursor → Program × Cursor
  | 0, c => (⟨[], [⟨c.next.span, "Nesting too deep"⟩]⟩, c)
  | limit + 1, c =>
    let c := c.skipSemicolons
    if c.next.kind = .eof then (⟨[], []⟩, c)
    else
      match g.statement c with
      | .fail failure c' => (⟨[.error failure.span failure.errors], failure.errors⟩, c')
      | .ok statement c' =>
        if statement.requiresSemicolon && c'.next.kind ≠ .semicolon && c'.next.kind ≠ .eof then
          (⟨[statement], [⟨c'.next.span, "Expected ';' after statement"⟩]⟩, c')
        else
          let (program, stop) := programFrom g limit c'
          (⟨statement :: program.statements, program.errors⟩, stop)

/-- Reads tokens as a program. -/
def program (tokens : List Token) : Program × Cursor :=
  let c := Cursor.ofTokens tokens
  programFrom (Grammar.forCursor c) (tokens.length + 1) c

/-- The expression at a cursor, an error node if there is none, and the cursor behind it. -/
def expressionAt (c : Cursor) : Expr × Cursor :=
  match (Grammar.forCursor c).expression c with
  | .ok expr c' => (expr, c')
  | .fail failure c' => (.error failure.span failure.errors, c')

/-- The statement at a cursor, an error node if there is none, and the cursor behind it. -/
def statementAt (c : Cursor) : Stmt × Cursor :=
  match (Grammar.forCursor c).statement c with
  | .ok statement c' => (statement, c')
  | .fail failure c' => (.error failure.span failure.errors, c')

end Parser

/-- Reads a source text as a program. Only a text that has no tokens is an error here; what the parser
cannot read is recorded in the program. -/
def parseProgram (source : String) : Except Diagnostic Program :=
  match tokenize source with
  | .ok tokens => .ok (Parser.program tokens).1
  | .error d => .error d

end Scripting
