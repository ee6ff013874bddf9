import Mathlib.Logic.Relation
import Scripting.Host.Session
import Scripting.Proofs.Discipline.Reach
import Scripting.Proofs.Liveness.Closed

/-!
The sessions that a host can get to, and the states that an interpreter goes through in them.

A host names things by its registers and by literals alone, so its commands are plain. A session is
reached by plain commands from a new interpreter. While a command is carried out, the interpreter goes
through further states: where something is asked for, and where an object is called.
-/

namespace Scripting.Host

/-- An operand that stands for nothing but a literal, a new string, or what the host or the interpreter
already has. -/
def Operand.isPlain : Operand → Bool
  | .value v => v.nodes.isEmpty
  | _ => true

def FunctionSpec.isPlain : FunctionSpec → Bool
  | .plain (.constant v) => v.nodes.isEmpty
  | _ => true

/-- The function that a command makes. -/
def Command.function? : Command → Option FunctionSpec
  | .method _ _ function | .memberFunction _ _ function | .native _ _ function => some function
  | _ => none

/-- A command as a host can write it. -/
def Command.isPlain (command : Command) : Bool :=
  command.operands.all (·.isPlain) && command.function?.all (·.isPlain)

namespace Session

/-- The state in which the host runs a source text. -/
def ready (session : Session) : State :=
  { session.state with held := session.registers.nodes }

/-- The host gives a command, one of those that `allowed` holds of, or takes what was written. -/
inductive Steps (allowed : Command → Prop) (session : Session) : Session → Prop where
  | perform (fuel : Nat) (command : Command) (target : Option String)
      (hplain : command.isPlain = true) (hallowed : allowed command) :
      Steps allowed session (session.perform fuel command target).2
  | takeOutput : Steps allowed session { session with state := session.state.takeOutput.2.2 }

/-- Commands lead from a session to a later one. -/
def Later (allowed : Command → Prop) : Session → Session → Prop :=
  Relation.ReflTransGen (Steps allowed)

/-- Commands lead from a new interpreter to the session. -/
def Reached (allowed : Command → Prop) (session : Session) : Prop :=
  ∃ globalMarker thisMarker files, Later allowed (start globalMarker thisMarker files) session

/-- Carries out commands one after the other. -/
def performAll (fuel : Nat) (commands : List (Command × Option String)) (session : Session) :
    Session :=
  commands.foldl (fun session command => (session.perform fuel command.1 command.2).2) session

theorem later_performAll {allowed : Command → Prop} (fuel : Nat)
    {commands : List (Command × Option String)} (session : Session)
    (h : ∀ command ∈ commands, command.1.isPlain = true ∧ allowed command.1) :
    Later allowed session (session.performAll fuel commands) := by
  induction commands generalizing session with
  | nil => exact .refl
  | cons command rest ih =>
    rw [List.forall_mem_cons] at h
    exact .head (.perform fuel command.1 command.2 h.1.1 h.1.2) (ih _ h.2)

/-- What an interpreter is asked for within a bound while it carries out a command, and the state in
which it is. -/
inductive Requested (session : Session) : Nat → Request → State → Prop where
  | command {n : Nat} {q : Request} {s : State} (command : Command)
      (hplain : command.isPlain = true)
      (hasks : Eval.Asks (act session.registers · command) (Eval.interp n) session.ready q s) :
      Requested session n q s
  | inside {n : Nat} {q q' : Request} {s s' : State} (h : Requested session (n + 1) q s)
      (hasks : q.Asks (Eval.interp n) s q' s') : Requested session n q' s'

/-- The states that an interpreter goes through while it carries out a command: the one in which it
starts, those in which something is asked for, and from there on those in which things are held, strings
are made and calls are entered. -/
inductive Visits (session : Session) : State → Prop where
  | ready : Visits session session.ready
  | asked {n : Nat} {q : Request} {s : State} (h : session.Requested n q s) : Visits session s
  | hold {s : State} {nodes : List Node} (h : Visits session s)
      (hnodes : ∀ node ∈ nodes, s.Has node) : Visits session (s.hold nodes)
  | newString {s : State} (text : String) (h : Visits session s) :
      Visits session (s.newString text).2
  | pushCall {s : State} (name : String) {this : Option ObjectId} (h : Visits session s)
      (hthis : ∀ o, this = some o → s.Has (.object o)) : Visits session (s.pushCall name this)

end Session

end Scripting.Host
