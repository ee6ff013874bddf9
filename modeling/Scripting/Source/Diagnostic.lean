import Scripting.Source.Span

/-!
Diagnostics: a message about a source text, and where in the text it applies.
-/

namespace Scripting

inductive DiagnosticKind where
  | lexer
  | parser
  | runtime
deriving DecidableEq, Repr, Inhabited

def DiagnosticKind.name : DiagnosticKind → String
  | .lexer => "Lexer"
  | .parser => "Parser"
  | .runtime => "Runtime"

structure Diagnostic where
  kind : DiagnosticKind
  message : String
  span : Option Span := none
deriving DecidableEq, Repr, Inhabited

namespace Diagnostic

/-- One line: kind, message and position. -/
def display (d : Diagnostic) : String :=
  match d.span with
  | some span => s!"{d.kind.name}: {d.message} ({span.start.display})"
  | none => s!"{d.kind.name}: {d.message}"

/-- The message, under it the source line with the span underlined. -/
def render (d : Diagnostic) (source : String) : String :=
  match d.span with
  | some span => s!"{span.start.display}: {d.message}\n" ++ span.underline source
  | none => s!"{d.message}\n"

/-- Several diagnostics of one source, one below the other. -/
def renderAll (source : String) (ds : List Diagnostic) : String :=
  String.join (ds.map (·.render source))

end Diagnostic

end Scripting
