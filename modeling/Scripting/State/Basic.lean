import Scripting.State.Files
import Scripting.Value.Object

/-!
The state of the interpreter: classes, objects and slots, the stack of frames, and two output streams.

Classes, objects and slots are only ever added, so identifiers stay valid.
-/

namespace Scripting

/-- An output stream. A closed stream takes no text. -/
structure Stream where
  text : String := ""
  closed : Bool := false
deriving DecidableEq, Repr, Inhabited

namespace Stream

def closedMessage : String := "stream closed"

/-- Holds for a text that the stream does not take. -/
def refuses (stream : Stream) (text : String) : Bool :=
  stream.closed && !text.isEmpty

def append (stream : Stream) (text : String) : Stream :=
  { stream with text := stream.text ++ text }

end Stream

/-- A frame of the call stack. Frames of blocks have an empty name. -/
structure Frame where
  name : String
  this : ObjectId
  scope : ObjectId
deriving DecidableEq, Repr, Inhabited

structure State where
  classes : Array Class := #[]
  objects : Array Object := #[]
  slots : Array Slot := #[]
  global : ObjectId := ⟨0⟩
  globalThis : ObjectId := ⟨1⟩
  /-- The innermost frame comes first. -/
  frames : List Frame := []
  output : Stream := {}
  errorOutput : Stream := {}
  files : Files := default
  /-- The classes that are alive only as long as something holds them. The interpreter or the host
  keeps all others. -/
  mortal : List ClassId := []
  /-- What the host and the running code hold. It is kept up to date only while there are mortal
  classes. -/
  held : List Node := []
deriving Inhabited

namespace State

def classInfo (s : State) (c : ClassId) : Class :=
  s.classes.getD c.index default

def object (s : State) (o : ObjectId) : Object :=
  s.objects.getD o.index default

def slot (s : State) (i : SlotId) : Slot :=
  s.slots.getD i.index default

def classOf? (s : State) (o : ObjectId) : Option Class :=
  (s.object o).classId.map s.classInfo

/-- The name of the class of an object. -/
def typeName (s : State) (o : ObjectId) : String :=
  match s.classOf? o with
  | some c => c.name
  | none => "Object"

def behavior? (s : State) (o : ObjectId) : Option Behavior :=
  (s.classOf? o).map (·.behavior)

def currentScope (s : State) : ObjectId :=
  match s.frames with
  | frame :: _ => frame.scope
  | [] => s.global

def thisObject (s : State) : ObjectId :=
  match s.frames with
  | frame :: _ => frame.this
  | [] => s.globalThis

/-- The names of the frames that have one, the innermost first. -/
def backtrace (s : State) : List String :=
  (s.frames.map (·.name)).filter (!·.isEmpty)

def depth (s : State) : Nat :=
  s.frames.length

/-- The own members of an object, with their slots. -/
def ownMembers (s : State) (o : ObjectId) : List (String × Slot) :=
  (s.object o).members.entries.map fun (name, slot) => (name, s.slot slot)

/-- What was written to the two streams, and the state with empty streams. -/
def takeOutput (s : State) : String × String × State :=
  (s.output.text, s.errorOutput.text,
    { s with output.text := "", errorOutput.text := "" })

/-! Adding classes, objects and slots. -/

def addClass (s : State) (c : Class) : ClassId × State :=
  (⟨s.classes.size⟩, { s with classes := s.classes.push c })

def addObject (s : State) (o : Object) : ObjectId × State :=
  (⟨s.objects.size⟩, { s with objects := s.objects.push o })

def addSlot (s : State) (slot : Slot) : SlotId × State :=
  (⟨s.slots.size⟩, { s with slots := s.slots.push slot })

/-! Changing them. -/

def writeSlot (s : State) (i : SlotId) (value : Value) : State :=
  { s with slots := s.slots.modify i.index fun slot => { slot with value } }

def bindMember (s : State) (o : ObjectId) (name : String) (slot : SlotId) : State :=
  { s with objects := s.objects.modify o.index fun object =>
      { object with members := object.members.insert name slot } }

def setHostData (s : State) (o : ObjectId) (data : HostData) : State :=
  { s with objects := s.objects.modify o.index fun object => { object with payload := .host data } }

/-- Sets a virtual member of a class. -/
def bindMethod (s : State) (c : ClassId) (name : String) (function : ObjectId) : State :=
  { s with classes := s.classes.modify c.index fun cls =>
      { cls with methods := cls.methods.insert name function } }

/-- Creates a slot for a member, in the place of an earlier one of the same name. -/
def allocate (s : State) (o : ObjectId) (name : String) (value : Value) (readOnly : Bool) :
    SlotId × State :=
  let (slot, s) := s.addSlot ⟨value, readOnly, some name⟩
  (slot, s.bindMember o name slot)

def newString (s : State) (text : String) : ObjectId × State :=
  s.addObject { classId := some .string, payload := .string text }

def newFunction (s : State) (callable : Callable) : ObjectId × State :=
  s.addObject { classId := some .function, payload := .function callable }

def newWrapper (s : State) (c : ClassId) : ObjectId × State :=
  s.addObject { classId := some .wrapper, payload := .wrapped c }

/-- An exception object; its text is also its member `message`. -/
def newException (s : State) (c : ClassId) (message : String) : ObjectId × State :=
  let (o, s) := s.addObject
    { classId := some c, payload := .exception ⟨message, s.backtrace⟩ }
  let (text, s) := s.newString message
  let (_, s) := s.allocate o "message" (.object text) false
  (o, s)

/-- A frame with a fresh scope that sees no other names than its own and the global ones. -/
def pushCall (s : State) (name : String) (this : Option ObjectId) : State :=
  let (scope, s) := s.addObject { payload := .scope none }
  { s with frames := ⟨name, this.getD s.globalThis, scope⟩ :: s.frames }

/-- A frame whose local names are the global ones. -/
def pushGlobal (s : State) (name : String) : State :=
  { s with frames := ⟨name, s.globalThis, s.global⟩ :: s.frames }

/-- A frame for a block: it sees the names of the current scope and keeps the current `this`. -/
def pushBlock (s : State) : State :=
  let (scope, s) := s.addObject { payload := .scope (some s.currentScope) }
  { s with frames := ⟨"", s.thisObject, scope⟩ :: s.frames }

def popFrame (s : State) : State :=
  { s with frames := s.frames.tail }

end State

end Scripting
