import Scripting.CommandLine.Report

/-!
The program: reads files and lines, and writes what the interpreter wrote.
-/

namespace Scripting.CommandLine

/-- Why a path led to no content, by the code that the system gave. Some codes come negated. -/
def fileErrorOfCode (code : UInt32) (details : String) : FileError :=
  match code.toInt32.toInt.natAbs with
  | 2 => .notFound
  | 13 => .denied
  | 20 => .notDirectory
  | 21 => .isDirectory
  | 36 => .nameTooLong
  | n => .other (details ++ " (os error " ++ toString n ++ ")")

def fileError : IO.Error → FileError
  | .noFileOrDirectory _ code details => fileErrorOfCode code details
  | .permissionDenied _ code details => fileErrorOfCode code details
  | .inappropriateType _ code details => fileErrorOfCode code details
  | .invalidArgument _ code details => fileErrorOfCode code details
  | .noSuchThing _ code details => fileErrorOfCode code details
  | .resourceExhausted _ code details => fileErrorOfCode code details
  | .otherError code details => fileErrorOfCode code details
  | e => .other (toString e)

/-- The text of a file. -/
def readText (path : String) : IO (Except FileError String) := do
  if path.toList.contains (Char.ofNat 0) then return .error .nulInName
  try
    let content ← IO.FS.readBinFile path
    match String.fromUTF8? content with
    | some text => return .ok text
    | none => return .error .notText
  catch e => return .error (fileError e)

/-- Writes what the interpreter has written so far. -/
def flushState (s : State) : IO State := do
  let (output, errors, s) := s.takeOutput
  let stdout ← IO.getStdout
  stdout.putStr output
  stdout.flush
  (← IO.getStderr).putStr errors
  return s

/-- Runs a computation. Whenever it needs a file, the file is read and the computation starts again;
it has changed nothing until it ends. -/
partial def settle {α : Type} (m : Eval α) (s : State) : IO (α × State) := do
  match m s with
  | .ok a s =>
    let s ← flushState s
    return (a, s)
  | .needsFile path =>
    let answer ← readText path
    settle m { s with files := s.files.learn path answer }
  | .thrown _ _ | .outOfFuel => throw (IO.userError "the script did not end")

/-- Reads and runs lines until the session or the input ends. -/
partial def interact (prompt : Bool) (s : State) : IO Ending := do
  let stdout ← IO.getStdout
  if prompt then
    stdout.putStr ">> "
    stdout.flush
  let line ← (← IO.getStdin).getLine
  if line.isEmpty then return .success
  let (ending, s) ← settle (turn (Eval.interp Eval.ample) line.toList) s
  match ending with
  | some ending => return ending
  -- Files are read again on every line.
  | none => interact prompt { s with files := default }

def start (action : Action) : IO Ending := do
  let s := State.initial default
  match action with
  | .repl => interact (← (← IO.getStdin).isTty) s
  | action =>
    let (ending, _) ← settle (act (Eval.interp Eval.ample) "" action) s
    return ending

end Scripting.CommandLine

open Scripting.CommandLine in
def main (arguments : List String) : IO UInt32 := do
  match readArguments arguments with
  | .error e =>
    let report := usageReport e
    IO.eprint report.errors
    return report.exitCode.toUInt32
  | .ok .showVersion =>
    IO.print versionText
    return 0
  | .ok .showHelp =>
    IO.print helpText
    return 0
  | .ok (.perform action) =>
    let ending ← start action
    IO.eprint ending.remark
    return ending.exitCode.toUInt32
