import Scripting.State.Lookup

/-!
The text of a value, as it is written and concatenated.
-/

namespace Scripting.State

/-- The text of an object, by the behavior of its class. -/
def objectText (s : State) (o : ObjectId) : String :=
  let object := s.object o
  match s.behavior? o with
  | some .string => object.text
  | some .function =>
    match object.functionName? with
    | some name => "[function " ++ name ++ "]"
    | none => "[function]"
  | some .exception =>
    match object.exception? with
    | some data => s.typeName o ++ ": " ++ data.message
    | none => s.typeName o
  | some .wrapper =>
    match object.wrapped? with
    | some c => "[class " ++ (s.classInfo c).name ++ "]"
    | none => "[class]"
  | some .tally =>
    match object.hostInt? with
    | some n => "Tally(" ++ toString n.toInt ++ ")"
    | none => "Tally"
  | _ => "[object " ++ s.typeName o ++ "]"

/-- The text of a value; a reference has the text of what it refers to. -/
def text (s : State) (v : Value) : String :=
  match s.deref v with
  | .int n => toString n.toInt
  | .bool b => toString b
  | .object o => s.objectText o
  | other => other.type.text

end Scripting.State
