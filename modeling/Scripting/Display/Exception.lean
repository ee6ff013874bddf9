import Scripting.Display.Members

/-!
What is said about an exception that no script caught.
-/

namespace Scripting.State

/-- The data of a thrown exception object; a script may throw other values too. -/
def exceptionData? (s : State) (e : Exception) : Option ExceptionData :=
  e.value.asObject?.bind fun o => (s.object o).exception?

def exceptionMessage (s : State) (e : Exception) : String :=
  match s.exceptionData? e with
  | some data => data.message
  | none => s.text e.value

def exceptionType (s : State) (e : Exception) : String :=
  match e.value with
  | .object o => s.typeName o
  | other => other.type.text

/-- One line: the type and the message. -/
def exceptionText (s : State) (e : Exception) : String :=
  s.exceptionType e ++ ": " ++ s.exceptionMessage e

def frameLines (frames : List String) : String :=
  String.join (frames.map fun frame => "    at " ++ frame ++ "\n")

/-- The report on an uncaught exception. -/
def report (s : State) (e : Exception) : String :=
  let head := if (s.exceptionData? e).isSome then s.exceptionText e else s.echo e.value
  "Uncaught " ++ head ++ "\n" ++ frameLines e.backtrace

end Scripting.State
