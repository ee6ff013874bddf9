import Scripting.State.Lookup
import Scripting.Text.Quoted

/-!
Descriptions of values, objects, classes and frames for people who write host programs.
-/

namespace Scripting.State

def describeUpTo (s : State) : Nat → Value → String
  | _, .invalid => "Invalid"
  | _, .null => "Null"
  | _, .undefined => "Undefined"
  | _, .int n => "Int(" ++ toString n.toInt ++ ")"
  | _, .bool b => "Bool(" ++ toString b ++ ")"
  | _, .object o => "Object(" ++ s.typeName o ++ ")"
  | 0, .reference _ => "Reference"
  | n + 1, .reference r =>
    let content := s.describeUpTo n (s.read r)
    match r.name with
    | some name => "Reference(" ++ name ++ " = " ++ content ++ ")"
    | none => "Reference(" ++ content ++ ")"

def describe (s : State) (v : Value) : String :=
  s.describeUpTo (s.slots.size + 1) v

def describeArguments (s : State) (args : List Value) : String :=
  "ArgumentList([" ++ ", ".intercalate (args.map s.describe) ++ "])"

def describeObject (s : State) (o : ObjectId) : String :=
  "Object \x7b class: " ++ Text.quoted (s.typeName o) ++ ", members: " ++
    toString (s.object o).members.size ++ ", .. \x7d"

def describeClass (s : State) (c : ClassId) : String :=
  let base := match s.base? c with
    | some b => "Some(" ++ Text.quoted (s.classInfo b).name ++ ")"
    | none => "None"
  "Class \x7b name: " ++ Text.quoted (s.classInfo c).name ++ ", base: " ++ base ++ " \x7d"

def describeException (s : State) (e : Exception) : String :=
  "Exception \x7b value: " ++ s.describe e.value ++ ", backtrace: " ++
    Text.quotedList e.backtrace ++ " \x7d"

def describeFrame (s : State) (f : Frame) : String :=
  "ExecutionContext \x7b name: " ++ Text.quoted f.name ++ ", this: " ++ s.describeObject f.this ++
    ", scope: " ++ s.describeObject f.scope ++ " \x7d"

/-- The frames, the outermost first. -/
def describeFrames (s : State) : String :=
  "CallStack \x7b frames: [" ++ ", ".intercalate (s.frames.reverse.map s.describeFrame) ++ "] \x7d"

end Scripting.State
