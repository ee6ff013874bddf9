/-!
Files that a script may include.

What a path leads to is a question to the outside world. `Files.read` holds the answers known so far;
a path without an answer makes a run stop until the answer is there.
-/

namespace Scripting

inductive FileError where
  | notFound
  | denied
  | notDirectory
  | isDirectory
  | nameTooLong
  | notText
  | nulInName
  | other (message : String)
deriving DecidableEq, Repr, Inhabited

def FileError.message : FileError → String
  | notFound => "No such file or directory (os error 2)"
  | denied => "Permission denied (os error 13)"
  | notDirectory => "Not a directory (os error 20)"
  | isDirectory => "Is a directory (os error 21)"
  | nameTooLong => "File name too long (os error 36)"
  | notText => "stream did not contain valid UTF-8"
  | nulInName => "file name contained an unexpected NUL byte"
  | other message => message

structure Files where
  read : String → Option (Except FileError String)

instance : Inhabited Files := ⟨⟨fun _ => none⟩⟩

namespace Files

/-- Adds the answer for one path. -/
def learn (files : Files) (path : String) (answer : Except FileError String) : Files :=
  ⟨fun p => if p = path then some answer else files.read p⟩

end Files

end Scripting
