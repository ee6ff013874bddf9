import Scripting.CommandLine.Arguments
import Scripting.CommandLine.Line
import Scripting.Eval.Run
import Scripting.State.Initial

/-!
What the program does for its arguments, its input and its files, and what it leaves behind.
-/

namespace Scripting.CommandLine

/-- How a run of the program ended. -/
inductive Ending where
  | success
  /-- A script failed; the failure was reported by the interpreter. -/
  | failure
  /-- The program itself could not go on. -/
  | aborted (message : String)
deriving DecidableEq, Repr, Inhabited

namespace Ending

/-- How the program ends for a failure of a script. Only a failure to report it aborts the program. -/
def ofError (s : State) (error : RunError) : Ending :=
  match error with
  | .output _ => .aborted (error.message s)
  | _ => .failure

def exitCode : Ending → Nat
  | success => 0
  | failure | aborted _ => 1

/-- What the program adds to the reports of the interpreter. -/
def remark : Ending → String
  | aborted message => "error: " ++ message ++ "\n"
  | _ => ""

end Ending

open Eval

/-- Runs a source text. -/
def runSource (i : Interp) (source : String) (mode : RunMode) : Eval Ending := do
  match ← runCode i source mode with
  | .ok _ => return .success
  | .error e => look fun s => Ending.ofError s e

/-- Runs the script in a file. -/
def runScript (i : Interp) (path : String) : Eval Ending := do
  match ← readFile path with
  | .ok source => runSource i source .script
  | .error e => return .aborted ("I/O error: " ++ e.message)

/-- One line of an interactive session; gives how the session ends, if it does. A script that fails
does not end it. -/
def turn (i : Interp) (line : List Char) : Eval (Option Ending) :=
  match Line.ofChars line with
  | .blank => return none
  | .quit => return some .success
  | .code source => do
    match ← runSource i source .interactive with
    | .aborted message => return some (.aborted message)
    | _ => return none

/-- An interactive session. -/
def converse (i : Interp) : List (List Char) → Eval Ending
  | [] => return .success
  | line :: rest => do
    match ← turn i line with
    | some ending => return ending
    | none => converse i rest

def act (i : Interp) (input : String) : Action → Eval Ending
  | .run path => runScript i path
  | .eval source => runSource i source .interactive
  | .repl => converse i (splitLines input.toList)

/-- What a run of the program leaves behind. -/
structure Report where
  exitCode : Nat
  output : String
  errors : String
deriving DecidableEq, Repr, Inhabited

def versionText : String := "evoscript 0.1.0\n"

def usageText : String := "Usage: evoscript [OPTIONS] [COMMAND]\n"

def helpText : String :=
  "evoscript language interpreter\n\n" ++ usageText ++
    "\nCommands:\n" ++
    "  run   Run an evoscript file\n" ++
    "  repl  Start an interactive REPL session\n" ++
    "  eval  Evaluate a snippet of evoscript code and print its value\n" ++
    "  help  Print this message or the help of the given subcommand(s)\n" ++
    "\nOptions:\n" ++
    "  -t, --trace...  Log interpreter internals to stderr (repeat for more detail)\n" ++
    "  -h, --help      Print help\n" ++
    "  -V, --version   Print version\n"

def usageReport (e : UsageError) : Report :=
  ⟨2, "", "error: " ++ e.message ++ "\n\n" ++ usageText⟩

/-- The report of a run of the program, within a bound; `none` if the bound is too small or a file has
no answer. -/
def report (fuel : Nat) (files : Files) (arguments : List String) (input : String) : Option Report :=
  match readArguments arguments with
  | .error e => some (usageReport e)
  | .ok .showVersion => some ⟨0, versionText, ""⟩
  | .ok .showHelp => some ⟨0, helpText, ""⟩
  | .ok (.perform action) =>
    match act (interp fuel) input action (State.initial files) with
    | .ok ending s =>
      some ⟨ending.exitCode, s.output.text, s.errorOutput.text ++ ending.remark⟩
    | _ => none

end Scripting.CommandLine
