import Scripting.Eval.Call

/-!
What a host program can ask of an interpreter that it embeds.

A host keeps values, slots and classes under names of its own, its registers. A command names what it
works on by operands, and gets a reply.
-/

namespace Scripting.Host

/-- A value as a host writes it. -/
inductive Operand where
  | value (v : Value)
  /-- A new string object. -/
  | text (text : String)
  | register (name : String)
  | global
  | globalThis
  | this
  /-- The scope of the current frame. -/
  | scope
deriving Repr, Inhabited

/-- The payload of an object that a host makes. -/
inductive PayloadSpec where
  | none
  | string (text : String)
  | hostData (data : HostData)
  | wrapped (className : String)
  | exception (message : String) (backtrace : List String)
  | scope (parent : Option Operand)
deriving Repr, Inhabited

/-- A function that a host makes. -/
inductive FunctionSpec where
  /-- The value is taken when the function is made. -/
  | constant (value : Operand)
  | plain (function : HostFunction)
deriving Repr, Inhabited

def FunctionSpec.operands : FunctionSpec → List Operand
  | .constant value => [value]
  | .plain _ => []

/-- The frames that a host can push. -/
inductive FrameSpec where
  | call (name : String) (receiver : Option Operand)
  | global (name : String)
  | block
deriving Repr, Inhabited

/-- What a host asks for. Classes, slots and registers are named by texts. -/
inductive Command where
  | newClass (name : String) (base : Option String) (behavior : Behavior) (register : Bool)
  | dropClass (name : String)
  | classInfo (className : String)
  | classMember (className name : String)
  | derives (className other : String)
  | wrapper (className : String)
  | create (className : String) (args : List Operand)
  | method (className name : String) (function : FunctionSpec)
  | virtualMember (className name : String) (value : Operand)
  | memberFunction (object : Operand) (name : String) (function : FunctionSpec)
  | native (name : String) (required : Option String) (function : FunctionSpec)
  | object (className : Option String) (payload : PayloadSpec)
  | exceptionObject (className message : String)
  | value (v : Operand)
  | defineGlobal (name : String) (v : Operand)
  | member (object : Operand) (name : String)
  | ownMember (object : Operand) (name : String)
  | peekMember (object : Operand) (name : String)
  | allocate (object : Operand) (name : String) (v : Operand) (readOnly : Bool)
  | setMember (object : Operand) (name : String) (v : Operand)
  | inspect (object : Operand)
  | instanceOf (object : Operand) (className : String)
  | newSlot (register : String) (v : Operand) (name : Option String) (readOnly : Bool)
  | reference (slot : String) (container : Option Operand) (name : Option String)
  | readSlot (slot : String)
  | assign (register : String) (v : Operand)
  | describe (v : Operand)
  | toInt (v : Operand)
  | toBool (v : Operand)
  | toObject (v : Operand)
  | toReference (v : Operand)
  | toWritable (v : Operand)
  | toPrimitive (v : Operand) (hint : ValueType)
  | unary (op : UnaryOp) (v : Operand)
  | binary (op : BinaryOp) (lhs rhs : Operand)
  | compare (lhs rhs : Operand)
  | objectAdd (lhs rhs : Operand)
  | objectCompare (lhs rhs : Operand)
  | objectSubscript (lhs rhs : Operand)
  | call (v : Operand) (args : List Operand)
  | callObject (object receiver : Operand) (args : List Operand)
  | arguments (args : List Operand) (index : Nat) (default : Operand)
  | resolve (name : String)
  | declare (name : String) (v : Operand) (readOnly : Bool)
  | throwText (className message : String)
  | throwValue (v : Operand)
  | stack
  | globals
  | push (frame : FrameSpec)
  | pop
  | close (output errorOutput : Bool)
  | write (text : String) (toErrors : Bool)
  | run (source : String) (mode : RunMode)
  | runTree (source : String)
  | execute (source : String)
  | evaluate (source : String)
deriving Inhabited

/-- What a host is told. -/
inductive Reply where
  | done
  | value (v : Value)
  | member (r : Reference) (o : ObjectId)
  | resolved (r : Reference)
  | slot (slot : Option SlotId)
  | allocated (slot : SlotId) (o : ObjectId)
  | members (o : ObjectId)
  | defined (c : ClassId)
  | classInfo (c : ClassId)
  | truth (b : Bool)
  | object (o : ObjectId)
  | description (v : Value)
  | int (n : Int64)
  | bool (b : Bool)
  | typed (o : ObjectId)
  | reference (r : Reference)
  | comparison (c : Comparison)
  /-- A list of arguments, and the one at an index: whether it is given and whether it is defined,
  and what it is taken for without and with a default. -/
  | arguments (args : List Value) (given defined : Bool) (found foundOr : Value)
  | stack
  | globals
  | completion (c : Completion)
  | thrown (e : Exception)
  | failed (source : String) (error : RunError)
  /-- A text that has no tokens. -/
  | unreadable (source : String) (diagnostic : Diagnostic)
  /-- The computation did not end. -/
  | unfinished
deriving Inhabited

/-- The operands of a command. -/
def Command.operands : Command → List Operand
  | .create _ args => args
  | .method _ _ function | .native _ _ function => function.operands
  | .virtualMember _ _ v | .value v | .defineGlobal _ v | .newSlot _ v _ _ | .assign _ v | .describe v
  | .toInt v | .toBool v | .toObject v | .toReference v | .toWritable v | .toPrimitive v _
  | .unary _ v | .declare _ v _ | .throwValue v => [v]
  | .memberFunction o _ function => o :: function.operands
  | .object _ (.scope (some parent)) => [parent]
  | .member o _ | .ownMember o _ | .peekMember o _ | .inspect o
  | .instanceOf o _ => [o]
  | .allocate o _ v _ | .setMember o _ v => [o, v]
  | .reference _ (some container) _ => [container]
  | .binary _ lhs rhs | .compare lhs rhs | .objectAdd lhs rhs | .objectCompare lhs rhs
  | .objectSubscript lhs rhs => [lhs, rhs]
  | .call v args => v :: args
  | .callObject o receiver args => o :: receiver :: args
  | .arguments args _ default => default :: args
  | .push (.call _ (some receiver)) => [receiver]
  | _ => []

/-- What a reply holds. -/
def Reply.nodes : Reply → List Node
  | .value v | .description v => v.nodes
  | .member r o => .object o :: (Value.reference r).nodes
  | .resolved r | .reference r => (Value.reference r).nodes
  | .slot (some i) => [.slot i]
  | .allocated i o => [.slot i, .object o]
  | .members o | .object o | .typed o => [.object o]
  | .defined c | .classInfo c => [.class c]
  | .arguments args _ _ found foundOr => (found :: foundOr :: args).flatMap Value.nodes
  | .completion (.normal v) | .completion (.returned v) => v.nodes
  | .thrown e | .failed _ (.uncaught e) => e.value.nodes
  | _ => []

/-- The value that a reply puts into a register. -/
def Reply.value? : Reply → Option Value
  | .value v => some v
  | .member r _ => some (.reference r)
  | .resolved r => some (.reference r)
  | .completion (.normal v) => some v
  | .completion (.returned v) => some v
  | _ => none

end Scripting.Host
