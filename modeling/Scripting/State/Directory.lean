import Scripting.State.Files

/-!
A directory held in memory, and what the paths of its files lead to.

Paths are resolved from the directory itself. Nothing is known about what lies outside of it, except
that the directories around it exist.
-/

namespace Scripting

structure Directory where
  /-- The names along the path of a file, and its bytes. -/
  files : List (List String × ByteArray) := []

instance : Inhabited Directory := ⟨{}⟩

namespace Directory

/-- Where a path has led so far. The names of the directories passed are kept, the last one first. -/
inductive Place where
  | inside (passed : List String)
  | outside
  | file (content : ByteArray)

/-- A part of a path that stays where it is. -/
def isIdle (name : String) : Bool :=
  name = "" || name = "."

/-- A directory with files given by their paths. -/
def ofFiles (files : List (String × ByteArray)) : Directory :=
  ⟨files.map fun (path, content) => ((path.splitOn "/").filter (!isIdle ·), content)⟩

/-- What has a name in the directory whose names were passed. -/
def child (d : Directory) (passed : List String) (name : String) : Except FileError Place :=
  let path := (name :: passed).reverse
  match d.files.find? (·.1 == path) with
  | some (_, content) => .ok (.file content)
  | none =>
    if d.files.any (path.isPrefixOf ·.1) then .ok (.inside (name :: passed))
    else if name.utf8ByteSize > 255 then .error .nameTooLong
    else .error .notFound

/-- One step along a path. -/
def enter (d : Directory) (place : Place) (name : String) : Except FileError Place :=
  match place with
  | .file _ => .error .notDirectory
  | .outside => if isIdle name || name = ".." then .ok .outside else .error .notFound
  | .inside passed =>
    if isIdle name then .ok place
    else if name = ".." then
      match passed with
      | [] => .ok .outside
      | _ :: rest => .ok (.inside rest)
    else d.child passed name

/-- What a path leads to. -/
def find (d : Directory) (path : String) : Except FileError Place :=
  if path.toList.contains (Char.ofNat 0) then .error .nulInName
  else if path.isEmpty then .error .notFound
  else if path.utf8ByteSize ≥ 4096 then .error .nameTooLong
  else
    let start := if path.toList.head? = some '/' then Place.outside else .inside []
    (path.splitOn "/").foldlM d.enter start

/-- The text of the file that a path leads to. -/
def read (d : Directory) (path : String) : Except FileError String := do
  match ← d.find path with
  | .file content =>
    match String.fromUTF8? content with
    | some text => return text
    | none => throw .notText
  | _ => throw .isDirectory

/-- The files of a directory; every path has an answer. -/
def toFiles (d : Directory) : Files :=
  ⟨fun path => some (d.read path)⟩

end Directory

end Scripting
