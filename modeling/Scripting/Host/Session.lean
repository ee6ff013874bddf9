import Scripting.Eval.Run
import Scripting.Host.Command
import Scripting.State.Initial

/-!
A host program at work: an interpreter, and the registers of the host.

A command acts on the interpreter first and on the registers afterwards. A command that throws leaves
the registers as they were. The registers hold what is in them; besides, what a command works on and
its reply are held until the next command.
-/

namespace Scripting.Host

/-- What a host keeps under names of its own. -/
structure Registers where
  values : Table Value := {}
  slots : Table SlotId := {}
  classes : Table ClassId := {}
  /-- The classes that the interpreter was asked to keep. -/
  kept : List ClassId := []
deriving Inhabited

namespace Registers

/-- The class with a name: one of the host, or else one that every interpreter has. A name that no
class has stands for the class of plain objects. -/
def classId (r : Registers) (name : String) : ClassId :=
  match r.classes.find? name, State.initialClasses.findIdx? (·.name = name) with
  | some c, _ => c
  | none, some i => ⟨i⟩
  | none, none => .object

def slotId (r : Registers) (name : String) : SlotId :=
  (r.slots.find? name).getD default

/-- What the registers hold. Classes in registers are not mortal, so they need no holder. -/
def nodes (r : Registers) : List Node :=
  r.values.entries.flatMap (fun entry => entry.2.nodes) ++
    r.slots.entries.map (fun entry => .slot entry.2)

/-- What the operands of a command hold. -/
def operandNodes (r : Registers) (command : Command) : List Node :=
  command.operands.flatMap fun
    | .register name => ((r.values.find? name).getD .undefined).nodes
    | _ => []

/-- The class that a command takes out of a register. -/
def replacedClass? (r : Registers) : Command → Option ClassId
  | .newClass name .. | .dropClass name => r.classes.find? name
  | _ => none

/-- The slot that a command takes out of a register. -/
def replacedSlot? (r : Registers) : Command → Option SlotId
  | .newSlot name .. => r.slots.find? name
  | _ => none

/-- The class that a command makes mortal: one that it takes out of a register, and that the
interpreter does not keep. -/
def releasedClass? (r : Registers) (command : Command) : Option ClassId :=
  (r.replacedClass? command).filter (!r.kept.contains ·)

end Registers

open Eval

variable (r : Registers)

def operand : Operand → Eval Value
  | .value v => return v
  | .text text => newString text
  | .register name => return (r.values.find? name).getD .undefined
  | .global => do
    let o ← look (·.global)
    return .object o
  | .globalThis => do
    let o ← look (·.globalThis)
    return .object o
  | .this => do
    let o ← look (·.thisObject)
    return .object o
  | .scope => do
    let o ← look (·.currentScope)
    return .object o

def operands : List Operand → Eval (List Value)
  | [] => return []
  | v :: rest => do
    let value ← operand r v
    let values ← operands rest
    return value :: values

/-- An operand that stands for an object. -/
def objectOperand (v : Operand) : Eval ObjectId := do
  let value ← operand r v
  toObject value

def optionalObject : Option Operand → Eval (Option ObjectId)
  | some v => do
    let o ← objectOperand r v
    return some o
  | none => return none

/-- The callback of a function that the host makes. -/
def callback : FunctionSpec → Eval Callback
  | .constant value => do
    let v ← operand r value
    return .host (.constant v)
  | .plain function => return .host function

def payload : PayloadSpec → Eval Payload
  | .none => return .none
  | .string text => return .string text
  | .hostData data => return .host data
  | .wrapped name => return .wrapped (r.classId name)
  | .exception message backtrace => return .exception ⟨message, backtrace⟩
  | .scope parent => do
    let o ← optionalObject r parent
    return .scope o

/-- A fresh slot for a virtual member, as an instance would get it. -/
def classMember (c : ClassId) (name : String) : Eval (Option SlotId) := do
  match ← survey (·.method? c name) with
  | some f =>
    let slot ← update (·.addSlot ⟨.object f, true, some name⟩)
    return some slot
  | none => return none

def pushFrame : FrameSpec → Eval Unit
  | .call name receiver => do
    let o ← optionalObject r receiver
    change (·.pushCall name o)
  | .global name => change (·.pushGlobal name)
  | .block => change (·.pushBlock)

/-- Reads a text as tokens and goes on with them. -/
def withTokens (source : String) (f : List Token → Eval Reply) : Eval Reply :=
  match tokenize source with
  | .ok tokens => f tokens
  | .error d => return .unreadable source d

/-- Writes through a reference in a register, or else puts a new value into the register. -/
def assignRegister (name : String) (v : Operand) : Eval Reply := do
  let value ← operand r v
  match (r.values.find? name).getD .undefined with
  | .reference target =>
    assign target value
    return .value (.reference target)
  | _ =>
    let value ← deref value
    return .value value

/-- Commands about classes. -/
def classCommand : Command → Eval Reply
  | .newClass name base behavior _ => do
    let c ← update (·.addClass { name, behavior, base := base.map r.classId })
    return .defined c
  | .classInfo name => return .classInfo (r.classId name)
  | .classMember className name => do
    let slot ← classMember (r.classId className) name
    return .slot slot
  | .derives name other => do
    let b ← survey (·.derivesFrom (r.classId name) (r.classId other))
    return .truth b
  | .wrapper name => do
    let o ← update (·.newWrapper (r.classId name))
    return .value (.object o)
  | .create name args => do
    let values ← operands r args
    let o ← construct (r.classId name) values
    return .value (.object o)
  | .method className name function => do
    let f ← callback r function
    change (·.defineMethod (r.classId className) name f)
    return .done
  | .virtualMember className name v => do
    let o ← objectOperand r v
    change (·.bindMethod (r.classId className) name o)
    return .done
  | _ => return .done

/-- Commands about objects and their members. -/
def objectCommand : Command → Eval Reply
  | .memberFunction object name function => do
    let o ← objectOperand r object
    let f ← callback r function
    change (·.defineFunction o name f)
    return .done
  | .native name required function => do
    let f ← callback r function
    let o ← update (·.newFunction (.native ⟨name, required.map r.classId, f⟩))
    return .value (.object o)
  | .object className spec => do
    let p ← payload r spec
    let o ← update (·.addObject { classId := className.map r.classId, payload := p })
    return .value (.object o)
  | .exceptionObject className message => do
    let o ← update (·.newException (r.classId className) message)
    return .value (.object o)
  | .member object name => do
    let o ← objectOperand r object
    let reference ← memberOf o name
    return .member reference o
  | .ownMember object name => do
    let o ← objectOperand r object
    let slot ← look (·.own? o name)
    return .slot slot
  | .peekMember object name => do
    let o ← objectOperand r object
    let slot ← peekAt o name
    return .slot slot
  | .allocate object name v readOnly => do
    let o ← objectOperand r object
    let value ← operand r v
    let slot ← update (·.allocate o name value readOnly)
    return .allocated slot o
  | .setMember object name v => do
    let o ← objectOperand r object
    let value ← operand r v
    let _ ← update (·.allocate o name value false)
    return .members o
  | .inspect object => do
    let o ← objectOperand r object
    return .object o
  | .instanceOf object className => do
    let o ← objectOperand r object
    let b ← survey (·.isInstanceOf o (r.classId className))
    return .truth b
  | _ => return .done

/-- Commands about values, slots and registers. -/
def valueCommand : Command → Eval Reply
  | .value v => do
    let value ← operand r v
    return .value value
  | .defineGlobal name v => do
    let value ← operand r v
    change (·.defineGlobal name value)
    return .done
  | .newSlot _ v name readOnly => do
    let value ← operand r v
    let slot ← update (·.addSlot ⟨value, readOnly, name⟩)
    return .slot (some slot)
  | .reference slot container name => do
    let o ← optionalObject r container
    return .value (.reference ⟨r.slotId slot, o, name⟩)
  | .readSlot slot => return .slot (some (r.slotId slot))
  | .assign name v => assignRegister r name v
  | .describe v => do
    let value ← operand r v
    return .description value
  | .toInt v => do
    let value ← operand r v
    let n ← Eval.toInt value
    return .int n
  | .toBool v => do
    let value ← operand r v
    let b ← truth value
    return .bool b
  | .toObject v => do
    let value ← operand r v
    let o ← Eval.toObject value
    return .typed o
  | .toReference v => do
    let value ← operand r v
    let reference ← Eval.toReference value
    return .reference reference
  | .toWritable v => do
    let value ← operand r v
    let reference ← toWritableReference value
    return .reference reference
  | .toPrimitive v hint => do
    let value ← operand r v
    let o ← Eval.toObject value
    let primitive ← Eval.toPrimitive o hint
    return .value primitive
  | .arguments args index default => do
    let values ← operands r args
    let other ← operand r default
    let defined ← isDefined values index
    return .arguments values (index < values.length) defined (argument values index)
      (values.getD index other)
  | _ => return .done

/-- Commands that apply operators. -/
def operatorCommand : Command → Eval Reply
  | .unary op v => do
    let value ← operand r v
    let result ← Eval.unary op value
    return .value result
  | .binary op lhs rhs => do
    let left ← operand r lhs
    let right ← operand r rhs
    let result ← Eval.binary op left right
    return .value result
  | .compare lhs rhs => do
    let left ← operand r lhs
    let right ← operand r rhs
    let c ← Eval.compare left right
    return .comparison c
  | .objectAdd lhs rhs => do
    let left ← operand r lhs
    let right ← operand r rhs
    let o ← Eval.toObject left
    let result ← operatorAdd o right
    return .value result
  | .objectCompare lhs rhs => do
    let left ← operand r lhs
    let right ← operand r rhs
    let o ← Eval.toObject left
    let c ← operatorCompare o right
    return .comparison c
  | .objectSubscript lhs rhs => do
    let left ← operand r lhs
    let right ← operand r rhs
    let o ← Eval.toObject left
    let result ← operatorSubscript o right
    return .value result
  | _ => return .done

/-- Commands that call, run or throw. -/
def runCommand (i : Interp) : Command → Eval Reply
  | .call v args => do
    let value ← operand r v
    let values ← operands r args
    let result ← i.call value values
    return .value result
  | .callObject object receiver args => do
    let o ← objectOperand r object
    let self ← objectOperand r receiver
    let values ← operands r args
    let result ← holding (.object o :: .object self :: values.flatMap Value.nodes)
      (callObject i o self values)
    return .value result
  | .throwText className message => throwOf (r.classId className) message
  | .throwValue v => do
    let value ← operand r v
    throwValue value
  | .run source mode => do
    match ← runCode i source mode with
    | .ok v => return .value v
    | .error e => return .failed source e
  | .runTree source =>
    withTokens source fun tokens => do
      let v ← runProgram i (Parser.program tokens).1
      return .value v
  | .execute source =>
    withTokens source fun tokens => do
      let c ← i.execute (Parser.statementAt (Cursor.ofTokens tokens)).1
      return .completion c
  | .evaluate source =>
    withTokens source fun tokens => do
      let v ← i.evaluate (Parser.expressionAt (Cursor.ofTokens tokens)).1
      return .value v
  | _ => return .done

/-- Commands about frames, names in scope and streams. -/
def frameCommand : Command → Eval Reply
  | .resolve name => do
    let reference ← resolve name
    return .resolved reference
  | .declare name v readOnly => do
    let value ← operand r v
    let _ ← update fun s => s.allocate s.currentScope name value readOnly
    return .done
  | .stack => return .stack
  | .globals => return .globals
  | .push frame => do
    pushFrame r frame
    return .done
  | .pop => do
    change (·.popFrame)
    return .done
  | .close output errorOutput => do
    change fun s => { s with output.closed := output, errorOutput.closed := errorOutput }
    return .done
  | .write text toErrors => do
    if toErrors then writeError text else Eval.write text
    return .done
  | _ => return .done

/-- What a command does to the interpreter. -/
def act (i : Interp) (command : Command) : Eval Reply :=
  match command with
  | .newClass .. | .dropClass _ | .classInfo _ | .classMember .. | .derives .. | .wrapper _
  | .create .. | .method .. | .virtualMember .. => classCommand r command
  | .memberFunction .. | .native .. | .object .. | .exceptionObject .. | .member .. | .ownMember ..
  | .peekMember .. | .allocate .. | .setMember .. | .inspect _ | .instanceOf .. =>
    objectCommand r command
  | .value _ | .defineGlobal .. | .newSlot .. | .reference .. | .readSlot _ | .assign ..
  | .describe _ | .toInt _ | .toBool _ | .toObject _ | .toReference _ | .toWritable _
  | .toPrimitive .. | .arguments .. => valueCommand r command
  | .unary .. | .binary .. | .compare .. | .objectAdd .. | .objectCompare ..
  | .objectSubscript .. => operatorCommand r command
  | .call .. | .callObject .. | .throwText .. | .throwValue _ | .run .. | .runTree _ | .execute _
  | .evaluate _ => runCommand r i command
  | .resolve _ | .declare .. | .stack | .globals | .push _ | .pop | .close .. | .write .. =>
    frameCommand r command

/-- What a command does to the registers, besides the one that takes its value. -/
def Registers.after (r : Registers) (command : Command) (reply : Reply) : Registers :=
  match command, reply with
  | .newClass name _ _ keep, .defined c =>
    { r with
      classes := r.classes.insert name c
      kept := if keep then c :: r.kept else r.kept }
  | .dropClass name, _ => { r with classes := r.classes.erase name }
  | .newSlot name .., .slot (some slot) => { r with slots := r.slots.insert name slot }
  | .assign name _, .value v => { r with values := r.values.insert name v }
  | _, _ => r

/-- Puts the value of a reply into a register. -/
def Registers.store (r : Registers) (target : Option String) (reply : Reply) : Registers :=
  match target, reply.value? with
  | some name, some v => { r with values := r.values.insert name v }
  | _, _ => r

structure Session where
  state : State
  registers : Registers := {}
  /-- How many global names there were before the first command. -/
  installed : Nat

namespace Session

/-- A session with a new interpreter. A marker makes the global object, or the global `this`, an object
of the host's own that has the marker as a member. -/
def start (globalMarker thisMarker : Option String) (files : Files) : Session :=
  let s := (State.bare globalMarker thisMarker files).install
  { state := s, installed := (s.object s.global).members.size }

/-- Carries out a command. The value of its reply goes into the register `target`, which lets go of
what it held before. Which classes are alive is settled before a reply is shown that holds anything. -/
def perform (fuel : Nat) (command : Command) (target : Option String) (session : Session) :
    Reply × Session :=
  let r := session.registers
  let s := { session.state with held := r.nodes }
  let working := r.operandNodes command ++ (r.replacedClass? command).toList.map .class ++
    (r.replacedSlot? command).toList.map .slot
  match act r (interp fuel) command s with
  | .ok reply s =>
    let registers := (r.after command reply).store target reply
    let s := { s with
      mortal := (r.releasedClass? command).toList ++ s.mortal
      held := registers.nodes ++ reply.nodes ++ working }
    let s := if reply.nodes.isEmpty then s else s.settle
    (reply, { session with state := s, registers })
  | .thrown e s =>
    let s := { s with held := r.nodes ++ e.value.nodes ++ working }
    (.thrown e, { session with state := s.settle })
  | _ => (.unfinished, session)

end Session

end Scripting.Host
