import Scripting.Eval.Program

/-!
The functions that every interpreter has.
-/

namespace Scripting.Eval

def argument (args : List Value) (index : Nat) : Value :=
  args.getD index .undefined

def expectAtLeast (args : List Value) (least : Nat) (name : String) : Eval Unit :=
  if args.length < least then fail (.tooFewArguments name least args.length) else return ()

def expectAtMost (args : List Value) (most : Nat) (name : String) : Eval Unit :=
  if args.length > most then fail (.tooManyArguments name most args.length) else return ()

/-- The texts of the arguments, one behind the other. -/
def joinedText (s : State) (args : List Value) : String :=
  String.join (args.map s.text)

def charsOf (o : ObjectId) : Eval (List Char) :=
  look fun s => (s.object o).text.toList

/-- A number of things, as an integer. The greatest integer stands for every number beyond it. -/
def countOf (n : Nat) : Int64 :=
  Int64.ofNat (min n 9223372036854775807)

/-- The number of characters. -/
def stringLength (this : ObjectId) : Eval Value := do
  let text ← look fun s => (s.object this).text
  return .int (countOf text.length)

def stringConcat (this : ObjectId) (args : List Value) : Eval Value := do
  newString (← look fun s => (s.object this).text ++ joinedText s args)

/-- A second argument, as an integer, if it is given. -/
def optionalLength (args : List Value) : Eval (Option Int64) :=
  match args[1]? with
  | some v => do
    let n ← toInt v
    return some n
  | none => return none

/-- The characters from `start` on, as many as `length` says or up to the end. -/
def substringOf (chars : List Char) (start : Int64) (length : Option Int64) :
    Except Fault (List Char) :=
  if start < 0 then .error .negativeStart
  else if length.any (· < 0) then .error .negativeLength
  else if start.toInt.toNat > chars.length then .error .startBeyondEnd
  else
    let behind := chars.drop start.toInt.toNat
    match length with
    | none => .ok behind
    | some n =>
      if start.toInt.toNat + n.toInt.toNat > chars.length then .error .lengthBeyondEnd
      else .ok (behind.take n.toInt.toNat)

def stringSubstring (this : ObjectId) (args : List Value) : Eval Value := do
  expectAtLeast args 1 "substring"
  expectAtMost args 2 "substring"
  let start ← toInt (argument args 0)
  let length ← optionalLength args
  let chars ← charsOf this
  match substringOf chars start length with
  | .ok part => newString (String.ofList part)
  | .error fault => fail fault

/-- The character with a code point, if there is one. -/
def character? (codepoint : Int64) : Option Char :=
  let n := codepoint.toInt
  if 0 ≤ n ∧ n.toNat.isValidChar then some (Char.ofNat n.toNat) else none

def charactersOf : List Value → Eval (List Char)
  | [] => return []
  | v :: rest => do
    let codepoint ← toInt v
    match character? codepoint with
    | some c =>
      let chars ← charactersOf rest
      return c :: chars
    | none => fail (.invalidCodepoint codepoint)

def stringFromCodepoints (args : List Value) : Eval Value := do
  let chars ← charactersOf args
  newString (String.ofList chars)

def constructWrapped (this : ObjectId) (args : List Value) : Eval Value := do
  match ← look fun s => (s.object this).wrapped? with
  | some c =>
    let o ← construct c args
    return .object o
  | none => fail .wrapperWithoutClass

def exceptionPrint (this : ObjectId) : Eval Value := do
  writeError (← survey fun s => s.detailed this ++ "\n")
  return .undefined

def systemWrite (args : List Value) : Eval Value := do
  write (← look fun s => joinedText s args)
  return .undefined

def systemWriteln (args : List Value) : Eval Value := do
  write (← look fun s => joinedText s args)
  write "\n"
  return .undefined

def dumpAll : List Value → Eval Unit
  | [] => return ()
  | v :: rest => do
    write (← survey fun s => s.dump v ++ "\n")
    dumpAll rest

def systemDump (args : List Value) : Eval Value := do
  dumpAll args
  return .int (countOf args.length)

def systemBacktrace : Eval Value := do
  writeError (← look fun s => "Backtrace:\n" ++ State.frameLines s.backtrace)
  return .undefined

/-- Calls the first argument and says whether it threw. -/
def systemThrows (i : Interp) (args : List Value) : Eval Value := do
  expectAtLeast args 1 "throws"
  match ← attempt (i.call (argument args 0) []) with
  | .ok _ => return .bool false
  | .error _ => return .bool true

/-- The content of a file. -/
def readFile (path : String) : Eval (Except FileError String) :=
  fun s =>
    match s.files.read path with
    | some answer => .ok answer s
    | none => .needsFile path

/-- Runs the text of a file in a frame of its own, among the global names. -/
def includeSource (i : Interp) (path source : String) : Eval Value :=
  inFrame (·.pushGlobal ("<include " ++ path ++ ">")) do
    match ← runCode i source .included with
    | .ok v => return v
    | .error (.uncaught e) => rethrow e
    | .error other => fail (.custom (← look other.message))

def includeFile (i : Interp) (args : List Value) : Eval Value := do
  if ← isDefined args 0 then
    let path ← look (·.text (argument args 0))
    match ← readFile path with
    | .ok source => includeSource i path source
    | .error e => fail (.cannotOpen path e.message)
  else fail .noFileName

def callBuiltin (i : Interp) (function : Builtin) (this : ObjectId) (args : List Value) :
    Eval Value :=
  match function with
  | .construct => constructWrapped this args
  | .stringLength => stringLength this
  | .stringConcat => stringConcat this args
  | .stringSubstring => stringSubstring this args
  | .stringFromCodepoints => stringFromCodepoints args
  | .exceptionPrint => exceptionPrint this
  | .systemWrite => systemWrite args
  | .systemWriteln => systemWriteln args
  | .systemDump => systemDump args
  | .systemBacktrace => systemBacktrace
  | .systemThrows => systemThrows i args
  | .includeFile => includeFile i args
  | .toInt => do
    let n ← toInt (argument args 0)
    return .int n
  | .toBool => do
    let b ← truth (argument args 0)
    return .bool b

end Scripting.Eval
