import Scripting.Display.Text

/-!
Values shown with their members.

The short form, used for echoed results, shows the members of an object; of members that are objects
it shows those without a class in full and the others by name. The dump shows every object in full. An
object that is met again while its own members are being shown is not shown a second time.
-/

namespace Scripting.State

def recursiveMark : String := "<recursive reference>"

def inBlock (lines : List String) : String :=
  "\x7b\n" ++ "\n".intercalate lines ++ "\n\x7d"

/-- An object without its members. -/
def brief (s : State) (o : ObjectId) : String :=
  let object := s.object o
  match s.behavior? o with
  | some .string => "\"" ++ object.text ++ "\""
  | some .function =>
    let kind := match object.callable? with
      | some (.native _) => "native function "
      | _ => "function "
    kind ++ object.functionName?.getD "<anonymous>" ++ "()"
  | some .exception => s.objectText o
  | some .wrapper =>
    match object.wrapped? with
    | some c => "class " ++ (s.classInfo c).name ++ " \x7b...\x7d"
    | none => s.objectText o
  | _ => s.typeName o ++ " \x7b...\x7d"

/-- The dump of a value, from that of the members of an object and the objects being shown. -/
def dumpWith (s : State) (visiting : List ObjectId) (members : ObjectId → String) :
    Nat → Value → String
  | _, .object o =>
    if visiting.contains o then recursiveMark
    else "Value\x7b object: " ++ s.typeName o ++ ":\x7b" ++ members o ++ "\x7d \x7d"
  | n + 1, .reference r =>
    "Value\x7b reference: " ++ s.dumpWith visiting members n (s.read r) ++ " \x7d"
  | _, .int n => "Value\x7b int: " ++ toString n.toInt ++ " \x7d"
  | _, .bool b => "Value\x7b bool: " ++ toString b ++ " \x7d"
  | _, v => "Value\x7b " ++ v.type.text ++ " \x7d"

theorem dumpWith_object (s : State) (visiting : List ObjectId) (members : ObjectId → String)
    (n : Nat) (o : ObjectId) : s.dumpWith visiting members n (.object o) =
      if visiting.contains o then recursiveMark
      else "Value\x7b object: " ++ s.typeName o ++ ":\x7b" ++ members o ++ "\x7d \x7d" := by
  cases n <;> rfl

/-- The value of a member, from the members of an object and the objects being shown. -/
def memberText (s : State) (dump : Bool) (visiting : List ObjectId) (members : ObjectId → String)
    (v : Value) : String :=
  if dump then s.dumpWith visiting members (s.slots.size + 1) v
  else
    match v with
    | .object o =>
      if visiting.contains o then recursiveMark
      else if (s.object o).classId.isNone then s.typeName o ++ " " ++ members o
      else s.brief o
    | v => s.text v

/-- The members of an object in braces, down to `n` objects inside each other. -/
def membersUpTo (s : State) (dump : Bool) : Nat → List ObjectId → ObjectId → String
  | 0, _, _ => recursiveMark
  | n + 1, visiting, o =>
    let own := (s.object o).members.entries
    let virtual := s.objectMethodNames o
    if own.isEmpty && virtual.isEmpty then "\x7b\x7d"
    else
      let visiting := o :: visiting
      inBlock <|
        own.map (fun (name, slot) => "  " ++ name ++ ": " ++
          s.memberText dump visiting (s.membersUpTo dump n visiting) (s.slot slot).value) ++
        virtual.map (fun name => "  " ++ name ++ "#: <function>")

/-- The members of an object in braces. Objects inside each other are all different, so there are
never more of them than objects. -/
def membersText (s : State) (dump : Bool) (o : ObjectId) : String :=
  s.membersUpTo dump (s.objects.size + 1) [] o

/-- An object with its members, or, for an exception, with its backtrace. -/
def detailed (s : State) (o : ObjectId) : String :=
  match s.behavior? o with
  | some .string | some .function | some .wrapper => s.brief o
  | some .exception =>
    s.objectText o ++
      match (s.object o).exception? with
      | some data => String.join (data.backtrace.map fun frame => "\n    at " ++ frame)
      | none => ""
  | _ => s.typeName o ++ " " ++ s.membersText false o

/-- An object as a member of another one, or shown by itself. A class-less object has no brief form. -/
def shown (s : State) (o : ObjectId) (inFull : Bool) : String :=
  if inFull || (s.object o).classId.isNone then s.detailed o else s.brief o

/-- A value as it is echoed. -/
def echo (s : State) (v : Value) : String :=
  match s.deref v with
  | .object o => s.detailed o
  | other => s.text other

/-- A value with all that can be reached from it. -/
def dump (s : State) (v : Value) : String :=
  s.dumpWith [] (s.membersUpTo true (s.objects.size + 1) []) (s.slots.size + 1) v

end Scripting.State
