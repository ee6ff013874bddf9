/-!
Positions in a source text. Lines and columns count characters and start at zero; offsets and
lengths count the bytes of the text in UTF-8.
-/

namespace Scripting

/-- The number of bytes of a text in UTF-8. -/
def byteLength : List Char → Nat
  | [] => 0
  | c :: rest => c.utf8Size + byteLength rest

structure Location where
  line : Nat := 0
  column : Nat := 0
  offset : Nat := 0
deriving DecidableEq, Repr, Inhabited

namespace Location

/-- The position behind a character. -/
def advance (p : Location) (c : Char) : Location :=
  if c = '\n' then ⟨p.line + 1, 0, p.offset + c.utf8Size⟩
  else ⟨p.line, p.column + 1, p.offset + c.utf8Size⟩

/-- The position behind a text. -/
def after (p : Location) (text : List Char) : Location :=
  text.foldl advance p

/-- Lines and columns are shown counted from one. -/
def display (p : Location) : String :=
  s!"{p.line + 1}:{p.column + 1}"

end Location

/-- A run of source text. -/
structure Span where
  start : Location := {}
  length : Nat := 0
deriving DecidableEq, Repr, Inhabited

namespace Span

/-- The offset one past the last byte. -/
def endOffset (s : Span) : Nat :=
  s.start.offset + s.length

/-- The smallest span that holds `s` and the end of `other`. -/
def join (s other : Span) : Span :=
  ⟨s.start, max other.endOffset s.endOffset - s.start.offset⟩

end Span

/-- Cuts a text at a byte offset: the first part holds the characters that fit into `offset` bytes. -/
def splitAtByte (offset : Nat) : List Char → List Char × List Char
  | [] => ([], [])
  | c :: rest =>
    if c.utf8Size ≤ offset then
      let (before, behind) := splitAtByte (offset - c.utf8Size) rest
      (c :: before, behind)
    else ([], c :: rest)

/-- What follows the last newline of a text, or all of it. -/
def lastLine (text : List Char) : List Char :=
  (text.reverse.takeWhile (· ≠ '\n')).reverse

namespace Span

/-- The source line on which the span starts, with carets below the spanned columns. The carets stop
at the end of the line, and there is at least one. -/
def underline (s : Span) (source : String) : String :=
  let (before, behind) := splitAtByte s.start.offset source.toList
  let head := lastLine before
  let tail := behind.takeWhile (· ≠ '\n')
  let carets := max 1 (min s.length (max tail.length 1))
  String.ofList (" | ".toList ++ head ++ tail ++ "\n | ".toList ++
    List.replicate head.length ' ' ++ List.replicate carets '^' ++ ['\n'])

end Span

end Scripting
