/-!
Values of the language.

Objects, slots and classes live in the state of the interpreter and are named by identifiers, so a
value is plain data: two values are the same exactly if they are equal.
-/

namespace Scripting

/-- Names a slot. Slots are numbered in the order in which they were created. -/
structure SlotId where
  index : Nat
deriving DecidableEq, Repr, Inhabited

/-- Names an object. Objects are numbered in the order in which they were created. -/
structure ObjectId where
  index : Nat
deriving DecidableEq, Repr, Inhabited

/-- Names a class. Classes are numbered in the order in which they were created. -/
structure ClassId where
  index : Nat
deriving DecidableEq, Repr, Inhabited

/-- A slot that a value stands for, with the object and the name it was found under. -/
structure Reference where
  slot : SlotId
  container : Option ObjectId := none
  name : Option String := none
deriving DecidableEq, Repr, Inhabited

inductive ValueType where
  | invalid
  | null
  | undefined
  | int
  | bool
  | object
  | reference
deriving DecidableEq, Repr, Inhabited

def ValueType.text : ValueType → String
  | invalid => "<invalid>"
  | null => "null"
  | undefined => "undefined"
  | int => "int"
  | bool => "bool"
  | object => "object"
  | reference => "reference"

inductive Value where
  | invalid
  | null
  | undefined
  | int (n : Int64)
  | bool (b : Bool)
  | object (id : ObjectId)
  | reference (r : Reference)
deriving DecidableEq, Repr, Inhabited

namespace Value

def type : Value → ValueType
  | invalid => .invalid
  | null => .null
  | undefined => .undefined
  | int _ => .int
  | bool _ => .bool
  | object _ => .object
  | reference _ => .reference

def isReference : Value → Bool
  | reference _ => true
  | _ => false

def asObject? : Value → Option ObjectId
  | object id => some id
  | _ => none

end Value

/-- A thing that can be held. -/
inductive Node where
  | object (o : ObjectId)
  | slot (i : SlotId)
  | class (c : ClassId)
deriving DecidableEq, Repr, Inhabited

/-- What a value holds. -/
def Value.nodes : Value → List Node
  | object o => [.object o]
  | reference r => .slot r.slot :: r.container.toList.map .object
  | _ => []

/-- A storage cell. -/
structure Slot where
  value : Value := .undefined
  readOnly : Bool := false
  name : Option String := none
deriving DecidableEq, Repr, Inhabited

end Scripting
