import Scripting.Text.Blank
import Scripting.Text.Cluster

/-!
Lines of input, as an interactive session reads them. A backspace in a line takes back the cluster in
front of it, that is what a reader sees as one character.
-/

namespace Scripting.CommandLine

/-- A line while its backspaces are carried out: what is kept, from its end, and the recorded size of
each cluster in it, the last one first. -/
structure Typed where
  kept : List Char := []
  sizes : List Nat := []
deriving DecidableEq, Repr, Inhabited

/-- The recorded size of a cluster is its number of bytes, in one byte: it starts again from zero at
256. -/
def recordedSize (cluster : List Char) : Nat :=
  cluster.foldl (fun size c => size + c.utf8Size) 0 % 256

/-- Takes characters off the start of a text until they make up a number of bytes. -/
def dropBytes : Nat → List Char → List Char
  | 0, text => text
  | _ + 1, [] => []
  | n + 1, c :: rest => dropBytes (n + 1 - c.utf8Size) rest

/-- A backspace takes off as many bytes as the last cluster is recorded with. -/
def Typed.add (typed : Typed) (cluster : List Char) : Typed :=
  if cluster = ['\x08'] then
    match typed.sizes with
    | [] => typed
    | size :: sizes => ⟨dropBytes size typed.kept, sizes⟩
  else ⟨cluster.reverseAux typed.kept, recordedSize cluster :: typed.sizes⟩

/-- The line without its backspaces and what they take back. -/
def applyBackspaces (line : List Char) : List Char :=
  if line.contains '\x08' then ((Text.clusters line).foldl Typed.add {}).kept.reverse else line

/-- Splits a text into lines. A line ends with a line feed, which may follow a carriage return; what
stands behind the last one is a line if it is not empty. -/
def splitLines (text : List Char) : List (List Char) :=
  let lines := text.splitOn '\n'
  if lines.getLast? = some [] then lines.dropLast else lines

/-- What a line asks for. -/
inductive Line where
  | blank
  | quit
  | code (source : String)
deriving DecidableEq, Repr, Inhabited

/-- Reads a line, with or without the end of the line. -/
def Line.ofChars (line : List Char) : Line :=
  let source := String.ofList (Text.trim (applyBackspaces line))
  if source = ":quit" || source = ":exit" then .quit
  else if source.isEmpty then .blank
  else .code source

end Scripting.CommandLine
