import Scripting.Eval.Builtin
import Scripting.Eval.Stmt

/-!
Calls. A call runs in a frame of its own, whose scope sees no local names of its caller.
-/

namespace Scripting.Eval

/-- The sum of arguments, wrapped to 64 bits. -/
def sumOf (total : Int64) : List Value → Eval Int64
  | [] => return total
  | v :: rest => do
    let n ← toInt v
    sumOf (total + n) rest

/-- A function of the host. -/
def callHost (i : Interp) (function : HostFunction) (this : ObjectId) (args : List Value) :
    Eval Value := do
  match function with
  | .constant value => return value
  | .sum =>
    let total ← sumOf 0 args
    let _ ← update (·.allocate this "last" (.int total) false)
    return .int total
  | .bump =>
    match ← look fun s => (s.object this).hostInt? with
    | some n =>
      change (·.setHostData this (.int (n + 1)))
      return .int (n + 1)
    | none => return .undefined
  | .thisType => newString (← look (·.typeName this))
  | .thisObject => return .object this
  | .contextThis =>
    let o ← look (·.thisObject)
    return .object o
  | .argumentCount => return .int (Int64.ofNat args.length)
  | .invalid => return .invalid
  | .throwText => fail (.custom (← look (·.text (argument args 0))))
  | .throwValue => throwValue (argument args 0)
  | .callArgument => i.call (argument args 0) (args.drop 1)
  | .backtrace => newString (← look fun s => "|".intercalate s.backtrace)
  | .bindLocal =>
    let _ ← update fun s => s.allocate s.currentScope "local" (argument args 0) false
    let r ← resolve "local"
    return .reference r

/-- The class that a native function requires and its `this` has not. A required class that is not
alive requires nothing. -/
def missingClass (required : Option ClassId) (this : ObjectId) : Eval (Option ClassId) := do
  match required with
  | none => return none
  | some c =>
    change (·.settleAmong [c])
    settleObject this
    look fun s => if (s.classInfo c).alive && !s.isInstanceOf this c then some c else none

/-- A native function checks its `this` first. -/
def callNative (i : Interp) (function : NativeFunction) (this : ObjectId) (args : List Value) :
    Eval Value := do
  match ← missingClass function.required this with
  | some c =>
    let actual ← look (·.typeName this)
    let required ← look fun s => (s.classInfo c).name
    fail (.wrongThis actual required)
  | none =>
    match function.callback with
    | .builtin builtin => callBuiltin i builtin this args
    | .host host => callHost i host this args

/-- Binds the parameters of a function; one without an argument is `undefined`. -/
def bindParams : List String → List Value → Eval Unit
  | [], _ => return ()
  | name :: names, args => do
    let v ← deref (args.headD .undefined)
    let _ ← update fun s => s.allocate s.currentScope name v false
    bindParams names args.tail

/-- Runs the body of a function in the current scope. -/
def callScript (i : Interp) (definition : FunctionDef) (args : List Value) : Eval Value := do
  bindParams definition.params args
  match ← runItems i .undefined definition.body with
  | .normal _ => return .undefined
  | .returned v => return v
  | .broken => fail .breakOutsideLoop
  | .continued => fail .continueOutsideLoop

/-- Calls an object in the current frame. -/
def callObject (i : Interp) (callee this : ObjectId) (args : List Value) : Eval Value := do
  match ← look (·.behavior? callee) with
  | none => fail .callWithoutClass
  | some .function =>
    match ← look fun s => (s.object callee).callable? with
    | some (.native function) => callNative i function this args
    | some (.script definition) => callScript i definition args
    | none => fail .functionWithoutBody
  | some .echo =>
    newString (← look fun s => "call(this=" ++ s.typeName this ++ " self=" ++
      toString (decide (this = callee)) ++ " args=" ++ toString args.length ++ ")")
  | some _ => fail (.notCallable (← look (·.typeName callee)))

/-- What a callee is called in a backtrace: the name of a function, or else the name under which the
object was found. -/
def calleeName (s : State) (v : Value) (callee : ObjectId) : String :=
  match (s.object callee).functionName?, v with
  | some name, _ => name
  | none, .reference r => r.name.getD "<object>"
  | none, _ => "<object>"

def frameName (s : State) (v : Value) (callee : ObjectId) (container : Option ObjectId) : String :=
  match container with
  | some o => s.typeName o ++ "::" ++ calleeName s v callee ++ "()"
  | none => calleeName s v callee ++ "()"

/-- The object through which a value was found. -/
def containerOf : Value → Option ObjectId
  | .reference r => r.container
  | _ => none

/-- Calls the object behind a value. Its `this` is the object it was found in, or else itself. All that
the call is made with is held until it ends. -/
def callStep (i : Interp) (v : Value) (args : List Value) : Eval Value := do
  match ← deref v with
  | .object callee =>
    let container := containerOf v
    let name ← look fun s => frameName s v callee container
    holding (.object callee :: v.nodes ++ args.flatMap Value.nodes)
      (inFrame (·.pushCall name container) (callObject i callee (container.getD callee) args))
  | _ => fail .callOfNonObject

end Scripting.Eval
