/-!
The arguments of the command line.

Arguments are read from left to right, and the first one that settles the matter does: a request for
help or for the version wins over what follows it, and so does a mistake.
-/

namespace Scripting.CommandLine

/-- What the program does with scripts. -/
inductive Action where
  | run (path : String)
  | repl
  | eval (source : String)
deriving DecidableEq, Repr, Inhabited

/-- What the arguments ask for. -/
inductive Request where
  | perform (action : Action)
  | showVersion
  | showHelp
deriving DecidableEq, Repr, Inhabited

inductive UsageError where
  | unknownOption (option : String)
  | unexpectedValue (option : String)
  | unexpectedArgument (argument : String)
  | unknownCommand (name : String)
  | missingArgument (name : String)
  | emptyArgument (name : String)
deriving DecidableEq, Repr, Inhabited

def UsageError.message : UsageError → String
  | unknownOption option => "unexpected argument '" ++ option ++ "' found"
  | unexpectedValue option => "unexpected value for '" ++ option ++ "'"
  | unexpectedArgument argument => "unexpected argument '" ++ argument ++ "' found"
  | unknownCommand name => "unrecognized subcommand '" ++ name ++ "'"
  | missingArgument name => "missing argument <" ++ name ++ ">"
  | emptyArgument name => "a value is required for <" ++ name ++ ">"

/-- The form of an argument. -/
inductive Argument where
  /-- Everything behind two dashes is a word. -/
  | separator
  | long (name : String) (value : Option String)
  | short (letters : List Char)
  | word (text : String)
deriving DecidableEq, Repr, Inhabited

/-- A long option ends at its first equals sign, behind which its value stands. -/
def Argument.ofLong (chars : List Char) : Argument :=
  let name := String.ofList (chars.takeWhile (· ≠ '='))
  match chars.dropWhile (· ≠ '=') with
  | [] => .long name none
  | _ :: value => .long name (some (String.ofList value))

/-- A single dash is a word. -/
def Argument.ofText (text : String) : Argument :=
  match text.toList with
  | ['-', '-'] => .separator
  | '-' :: '-' :: chars => .ofLong chars
  | '-' :: c :: letters => .short (c :: letters)
  | _ => .word text

/-- What an argument settles; `none` if it settles nothing and reading goes on. -/
abbrev Verdict := Option (Except UsageError Request)

/-- Reads letters behind one dash. `top` holds in front of the command; only there can the version be
asked for. -/
def readLetters (top : Bool) : List Char → Verdict
  | [] => none
  | 't' :: rest => readLetters top rest
  | 'h' :: _ => some (.ok .showHelp)
  | c :: _ =>
    if top && c = 'V' then some (.ok .showVersion)
    else some (.error (.unknownOption (String.ofList ['-', c])))

def readLong (top : Bool) (name : String) (value : Option String) : Verdict :=
  let option := "--" ++ name
  let verdict : Option Verdict :=
    if name = "trace" then some none
    else if name = "help" then some (some (.ok .showHelp))
    else if top && name = "version" then some (some (.ok .showVersion))
    else none
  match verdict, value with
  | none, _ => some (.error (.unknownOption option))
  | some _, some _ => some (.error (.unexpectedValue option))
  | some verdict, none => verdict

/-- A command, with the words that it has got so far. -/
inductive Command where
  | run (path : Option String)
  | repl
  | eval (source : Option String)
deriving DecidableEq, Repr, Inhabited

def Command.ofName? (name : String) : Option Command :=
  match name with
  | "run" => some (.run none)
  | "repl" => some .repl
  | "eval" => some (.eval none)
  | _ => none

/-- Gives a word to a command. -/
def Command.take (command : Command) (word : String) : Except UsageError Command :=
  match command with
  | .run none => if word.isEmpty then .error (.emptyArgument "SCRIPT") else .ok (.run (some word))
  | .eval none => .ok (.eval (some word))
  | _ => .error (.unexpectedArgument word)

/-- The action of a command that has got all its words. -/
def Command.finish : Command → Except UsageError Request
  | .run (some path) => .ok (.perform (.run path))
  | .eval (some source) => .ok (.perform (.eval source))
  | .repl => .ok (.perform .repl)
  | .run none => .error (.missingArgument "SCRIPT")
  | .eval none => .error (.missingArgument "SOURCE")

/-- Gives words to a command, whatever they look like. -/
def readWords (command : Command) (words : List String) : Except UsageError Request := do
  let command ← words.foldlM Command.take command
  command.finish

/-- Reads what stands behind the name of a command. -/
def readCommand (command : Command) : List String → Except UsageError Request
  | [] => command.finish
  | text :: rest =>
    match Argument.ofText text with
    | .separator => readWords command rest
    | .long name value => (readLong false name value).getD (readCommand command rest)
    | .short letters => (readLetters false letters).getD (readCommand command rest)
    | .word word =>
      match command.take word with
      | .ok command => readCommand command rest
      | .error e => .error e

/-- The command `help` takes the name of a command. -/
def readHelp : List String → Except UsageError Request
  | [] => .ok .showHelp
  | [name] =>
    if name = "help" || (Command.ofName? name).isSome then .ok .showHelp
    else .error (.unknownCommand name)
  | _ :: name :: _ => .error (.unknownCommand name)

/-- Reads the arguments of the program. Without a command it is `repl`. -/
def readArguments : List String → Except UsageError Request
  | [] => .ok (.perform .repl)
  | text :: rest =>
    match Argument.ofText text with
    | .separator => readWords .repl rest
    | .long name value => (readLong true name value).getD (readArguments rest)
    | .short letters => (readLetters true letters).getD (readArguments rest)
    | .word "help" => readHelp rest
    | .word name =>
      match Command.ofName? name with
      | some command => readCommand command rest
      | none => .error (.unknownCommand name)

end Scripting.CommandLine
