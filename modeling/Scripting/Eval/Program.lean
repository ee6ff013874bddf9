import Scripting.Eval.Interp
import Scripting.Parser.Program

/-!
Running a source text.
-/

namespace Scripting

/-- What is done with the result of a source text and with its failure. -/
inductive RunMode where
  /-- Failures are reported. -/
  | script
  /-- Failures are reported and results are echoed. -/
  | interactive
  /-- Nothing is reported; a text that cannot be read is a `SyntaxError` exception. -/
  | included
deriving DecidableEq, Repr, Inhabited

/-- Why a source text gave no value. -/
inductive RunError where
  | lexer (diagnostic : Diagnostic)
  | parser (diagnostics : List Diagnostic)
  | uncaught (exception : Exception)
  /-- A report or an echo could not be written. -/
  | output (reason : String)
deriving Inhabited

/-- The text of a failure, as a host program sees it. -/
def RunError.message (s : State) : RunError → String
  | lexer d => d.display
  | parser ds => "syntax errors detected (" ++ toString ds.length ++ " total)"
  | uncaught e => "uncaught exception: " ++ s.exceptionText e
  | output reason => "I/O error: " ++ reason

namespace Eval

/-- Runs statements one after the other and gives the value of the last. The value of a statement is
held until the next one has run. -/
def runStatements (i : Interp) (last : Value) : List Stmt → Eval Value
  | [] => return last
  | statement :: rest => do
    match ← holding last.nodes (i.execute statement) with
    | .normal v => runStatements i v rest
    | .returned _ => fail .returnInGlobalScope
    | .broken => fail .breakInGlobalScope
    | .continued => fail .continueInGlobalScope

def runProgram (i : Interp) (program : Program) : Eval Value :=
  runStatements i .undefined program.statements

/-- Reports a failure and gives it, unless the report cannot be written. -/
def reported {α : Type} (text : String) (error : RunError) : Eval (Except RunError α) := do
  if ← offerError text then return .error error
  else return .error (.output Stream.closedMessage)

/-- A text that cannot be read, as an exception. -/
def unreadable {α : Type} (what rendered : String) : Eval (Except RunError α) := do
  let message := what ++ "\n" ++ String.ofList (Text.trimEnd rendered.toList)
  match ← attempt (throwOf .syntaxError message) with
  | .ok a => return .ok a
  | .error e => return .error (.uncaught e)

/-- Runs a program that was read without errors. -/
def runChecked (i : Interp) (program : Program) (mode : RunMode) :
    Eval (Except RunError Value) := do
  match ← attempt (runProgram i program) with
  | .ok v =>
    let result ← deref v
    match mode with
    | .interactive =>
      let text ← holding (v.nodes ++ result.nodes) (survey (·.echo result))
      if ← offer (text ++ "\n") then return .ok result
      else return .error (.output Stream.closedMessage)
    | _ => return .ok result
  | .error e =>
    match mode with
    | .included => return .error (.uncaught e)
    | _ =>
      let text ← holding e.value.nodes (survey (·.report e))
      reported text (.uncaught e)

/-- Reads and runs a source text in the current frame. -/
def runCode (i : Interp) (source : String) (mode : RunMode) : Eval (Except RunError Value) :=
  match parseProgram source with
  | .error d =>
    match mode with
    | .included => unreadable "Lexer errors in included script" (d.render source)
    | _ => reported ("Lexer error: " ++ d.render source) (.lexer d)
  | .ok program =>
    if program.isError then
      let rendered := Diagnostic.renderAll source program.diagnostics
      match mode with
      | .included => unreadable "Parser errors in included script" rendered
      | _ => reported ("Syntax Errors detected:\n" ++ rendered) (.parser program.diagnostics)
    else runChecked i program mode

end Eval

end Scripting
