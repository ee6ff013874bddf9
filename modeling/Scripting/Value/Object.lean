import Scripting.Table
import Scripting.Tree.Basic
import Scripting.Value.Basic

/-!
Objects and classes.

An object has a table of members, an optional class, and a payload that scripts cannot reach as a
member. A class has a table of virtual members that all its instances share, an optional base, and a
behavior that says how its instances are constructed, printed, compared and called.
-/

namespace Scripting

/-- The functions that every interpreter has. -/
inductive Builtin where
  | construct
  | stringLength
  | stringConcat
  | stringSubstring
  | stringFromCodepoints
  | exceptionPrint
  | systemWrite
  | systemWriteln
  | systemDump
  | systemBacktrace
  | systemThrows
  | includeFile
  | toInt
  | toBool
deriving DecidableEq, Repr, Inhabited

/-- Functions that a host program can install. -/
inductive HostFunction where
  /-- Gives a fixed value. -/
  | constant (value : Value)
  /-- Gives the sum of the arguments and stores it in the member `last`. -/
  | sum
  /-- Adds one to the integer that the host keeps in the object. -/
  | bump
  | thisType
  | thisObject
  | contextThis
  | argumentCount
  | invalid
  | throwText
  | throwValue
  /-- Calls the first argument with the other ones. -/
  | callArgument
  | backtrace
  /-- Binds the name `local` in the current scope. -/
  | bindLocal
deriving DecidableEq, Repr, Inhabited

inductive Callback where
  | builtin (function : Builtin)
  | host (function : HostFunction)
deriving DecidableEq, Repr, Inhabited

/-- A function that is not written in the language. If a class is required, it is called only on
instances of that class. -/
structure NativeFunction where
  name : String
  required : Option ClassId := none
  callback : Callback
deriving DecidableEq, Repr, Inhabited

inductive Callable where
  | native (function : NativeFunction)
  | script (definition : FunctionDef)
deriving Inhabited

def Callable.name? : Callable → Option String
  | native function => some function.name
  | script definition => definition.name

/-- What an exception object knows about its origin. -/
structure ExceptionData where
  message : String
  /-- The names of the frames at its construction, the innermost first. -/
  backtrace : List String
deriving DecidableEq, Repr, Inhabited

/-- A thrown value, with the names of the frames at the place where it was thrown. -/
structure Exception where
  value : Value
  backtrace : List String
deriving DecidableEq, Repr, Inhabited

/-- Data that a host program keeps in an object. -/
inductive HostData where
  | int (n : Int64)
  | text (text : String)
deriving DecidableEq, Repr, Inhabited

inductive Payload where
  | none
  | string (text : String)
  | function (callable : Callable)
  /-- The object stands for a class. -/
  | wrapped (id : ClassId)
  | exception (data : ExceptionData)
  /-- The object holds the local names of a frame; the parent is the enclosing block. -/
  | scope (parent : Option ObjectId)
  | host (data : HostData)
deriving Inhabited

/-- What a payload holds. The class that a native function requires is not held by it. -/
def Payload.nodes : Payload → List Node
  | .function (.native f) =>
    match f.callback with
    | .host (.constant v) => v.nodes
    | _ => []
  | .wrapped c => [.class c]
  | .scope parent => parent.toList.map .object
  | _ => []

structure Object where
  classId : Option ClassId := .none
  members : Table SlotId := {}
  payload : Payload := .none
deriving Inhabited

namespace Object

def text? (o : Object) : Option String :=
  match o.payload with
  | .string text => some text
  | _ => none

/-- The text of a string object; empty for any other. -/
def text (o : Object) : String :=
  o.text?.getD ""

def callable? (o : Object) : Option Callable :=
  match o.payload with
  | .function callable => some callable
  | _ => none

def functionName? (o : Object) : Option String :=
  o.callable?.bind (·.name?)

def wrapped? (o : Object) : Option ClassId :=
  match o.payload with
  | .wrapped id => some id
  | _ => none

def exception? (o : Object) : Option ExceptionData :=
  match o.payload with
  | .exception data => some data
  | _ => none

def parentScope? (o : Object) : Option ObjectId :=
  match o.payload with
  | .scope parent => parent
  | _ => none

def hostInt? (o : Object) : Option Int64 :=
  match o.payload with
  | .host (.int n) => some n
  | _ => none

def hostText? (o : Object) : Option String :=
  match o.payload with
  | .host (.text text) => some text
  | _ => none

end Object

/-- How the instances of a class behave. -/
inductive Behavior where
  | plain
  | string
  | function
  | exception
  | wrapper
  /-- Keeps an integer for the host, and compares and converts by it. -/
  | tally
  /-- Answers every operation with a description of it. -/
  | echo
deriving DecidableEq, Repr, Inhabited

structure Class where
  name : String
  behavior : Behavior := .plain
  base : Option ClassId := none
  methods : Table ObjectId := {}
  /-- A class that nothing holds any more is not alive. Links to it then lead nowhere. A class does
  not hold its base. -/
  alive : Bool := true
deriving Inhabited

namespace ClassId

/-! The classes that every interpreter has. -/

def object : ClassId := ⟨0⟩
def exception : ClassId := ⟨1⟩
def global : ClassId := ⟨2⟩
def function : ClassId := ⟨3⟩
def wrapper : ClassId := ⟨4⟩
def string : ClassId := ⟨5⟩
def syntaxError : ClassId := ⟨6⟩
def system : ClassId := ⟨7⟩

end ClassId

end Scripting
