import Scripting.State.Basic

/-!
Finding things by name: virtual members along the chain of base classes, members of objects, and
identifiers along the chain of scopes.
-/

namespace Scripting.State

/-- The number of classes that every interpreter has. -/
def builtinClassCount : Nat := 8

/-- The base of a class, if it is alive. -/
def base? (s : State) (c : ClassId) : Option ClassId :=
  match (s.classInfo c).base with
  | some b => if (s.classInfo b).alive then some b else none
  | none => none

def lineageUpTo (s : State) : Nat → ClassId → List ClassId
  | 0, _ => []
  | n + 1, c =>
    c :: match s.base? c with
      | some b => s.lineageUpTo n b
      | none => []

/-- A class, its base, the base of that one, and so on. A base is older than the class derived from
it, so a chain is never longer than the number of classes. -/
def lineage (s : State) (c : ClassId) : List ClassId :=
  s.lineageUpTo (s.classes.size + 1) c

def derivesFrom (s : State) (c other : ClassId) : Bool :=
  (s.lineage c).contains other

def isInstanceOf (s : State) (o : ObjectId) (c : ClassId) : Bool :=
  match (s.object o).classId with
  | some own => s.derivesFrom own c
  | none => false

/-- The virtual member of a name: that of the class itself, or else that of the nearest base. -/
def method? (s : State) (c : ClassId) (name : String) : Option ObjectId :=
  (s.lineage c).findSome? fun k => (s.classInfo k).methods.find? name

/-- The names of the virtual members of a class: first its own, then those of its bases that are not
listed yet. -/
def methodNames (s : State) (c : ClassId) : List String :=
  (s.lineage c).foldr (fun k names =>
    let own := (s.classInfo k).methods.names
    own ++ names.filter (!own.contains ·)) []

def objectMethodNames (s : State) (o : ObjectId) : List String :=
  match (s.object o).classId with
  | some c => s.methodNames c
  | none => []

def objectMethod? (s : State) (o : ObjectId) (name : String) : Option ObjectId :=
  (s.object o).classId.bind fun c => s.method? c name

def own? (s : State) (o : ObjectId) (name : String) : Option SlotId :=
  (s.object o).members.find? name

/-- The slot of a member that exists. A virtual member wins over an own one, and is handed out in a
fresh slot that cannot be written. -/
def peek (s : State) (o : ObjectId) (name : String) : Option SlotId × State :=
  match s.objectMethod? o name with
  | some function =>
    let (slot, s) := s.addSlot ⟨.object function, true, some name⟩
    (some slot, s)
  | none => (s.own? o name, s)

/-- A member of an object. A member that does not exist is created as `undefined`. -/
def member (s : State) (o : ObjectId) (name : String) : Reference × State :=
  match s.peek o name with
  | (some slot, s) => (⟨slot, some o, some name⟩, s)
  | (none, s) =>
    let (slot, s) := s.allocate o name .undefined false
    (⟨slot, some o, some name⟩, s)

/-- The innermost scope that has a name of its own, from `scope` outwards. -/
def findScope (s : State) (name : String) : Nat → ObjectId → Option (ObjectId × SlotId)
  | 0, _ => none
  | n + 1, scope =>
    match s.own? scope name with
    | some slot => some (scope, slot)
    | none =>
      match (s.object scope).parentScope? with
      | some parent => s.findScope name n parent
      | none => none

/-- What an identifier stands for. A name that no scope has is a member of the global object. A scope
is younger than the one around it, so the chain is never longer than the number of objects. -/
def resolve (s : State) (name : String) : Reference × State :=
  match s.findScope name (s.objects.size + 1) s.currentScope with
  | some (scope, slot) =>
    (⟨slot, if scope = s.global then some s.global else none, some name⟩, s)
  | none => s.member s.global name

/-- Follows at most `n` references. -/
def followUpTo (s : State) : Nat → Value → Value
  | n + 1, .reference r => s.followUpTo n (s.slot r.slot).value
  | _, v => v

/-- The value behind any number of references. A slot refers only to older slots, so there are never
more of them than slots. -/
def deref (s : State) (v : Value) : Value :=
  s.followUpTo (s.slots.size + 1) v

/-- The slot of a reference is read; any other value has none. -/
def read (s : State) (r : Reference) : Value :=
  (s.slot r.slot).value

def truth (s : State) (v : Value) : Bool :=
  match s.deref v with
  | .int n => n ≠ 0
  | .bool b => b
  | .object _ => true
  | _ => false

end Scripting.State
