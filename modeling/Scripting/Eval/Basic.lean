import Scripting.Display.Exception
import Scripting.Eval.Fault
import Scripting.State.Liveness

/-!
Computations of the interpreter.

A computation reads and changes the state and gives a value or throws. It can also stop without an
answer, because the bound on its length is used up or because it needs a file that has not been read
yet; these are not exceptions, and no script can catch them.
-/

namespace Scripting

inductive Outcome (α : Type) where
  | ok (value : α) (state : State)
  | thrown (exception : Exception) (state : State)
  /-- The bound on the length of the computation is used up. -/
  | outOfFuel
  /-- The answer for a path is not known yet. -/
  | needsFile (path : String)

def Eval (α : Type) : Type :=
  State → Outcome α

namespace Eval

variable {α β : Type}

@[always_inline, inline]
def result (a : α) : Eval α :=
  fun s => .ok a s

@[always_inline, inline]
def andThen (m : Eval α) (f : α → Eval β) : Eval β :=
  fun s =>
    match m s with
    | .ok a s => f a s
    | .thrown e s => .thrown e s
    | .outOfFuel => .outOfFuel
    | .needsFile path => .needsFile path

@[always_inline]
instance : Monad Eval where
  pure := result
  bind := andThen

/-- Looks at the state. -/
@[inline]
def look (f : State → α) : Eval α :=
  fun s => .ok (f s) s

/-- Changes the state. -/
@[inline]
def change (f : State → State) : Eval Unit :=
  fun s => .ok () (f s)

/-- Changes the state and gives a value. -/
@[inline]
def update (f : State → α × State) : Eval α :=
  fun s => let (a, s) := f s; .ok a s

def outOfFuel : Eval α :=
  fun _ => .outOfFuel

/-- Throws an exception that is already made. -/
@[inline]
def rethrow (e : Exception) : Eval α :=
  fun s => .thrown e s

/-- Throws a value. -/
def throwValue (v : Value) : Eval α :=
  fun s => .thrown ⟨s.deref v, s.backtrace⟩ s

/-- Throws a new exception object of a class. -/
def throwOf (c : ClassId) (message : String) : Eval α :=
  fun s =>
    let (o, s) := s.newException c message
    .thrown ⟨.object o, s.backtrace⟩ s

def fail (fault : Fault) : Eval α :=
  throwOf .exception fault.message

/-- Runs a computation and gives its exception as a value. -/
@[inline]
def attempt (m : Eval α) : Eval (Except Exception α) :=
  fun s =>
    match m s with
    | .ok a s => .ok (.ok a) s
    | .thrown e s => .ok (.error e) s
    | .outOfFuel => .outOfFuel
    | .needsFile path => .needsFile path

/-- Runs a computation in a frame that `push` puts on the stack, and takes the frame off at its end,
however it ends. -/
@[inline]
def inFrame (push : State → State) (m : Eval α) : Eval α :=
  fun s =>
    match m (push s) with
    | .ok a s => .ok a s.popFrame
    | .thrown e s => .thrown e s.popFrame
    | .outOfFuel => .outOfFuel
    | .needsFile path => .needsFile path

/-- Runs a computation while things are held, and lets go of them at its end, however it ends. Only
the life of mortal classes depends on it. -/
@[inline]
def holding (nodes : List Node) (m : Eval α) : Eval α :=
  fun s =>
    if s.mortal.isEmpty then m s
    else
      let before := s.held
      match m (s.hold nodes) with
      | .ok a s => .ok a { s with held := before }
      | .thrown e s => .thrown e { s with held := before }
      | .outOfFuel => .outOfFuel
      | .needsFile path => .needsFile path

/-- Looks at the state when it is settled which classes are alive. -/
def survey (f : State → α) : Eval α :=
  fun s => let s := s.settle; .ok (f s) s

/-- Settles which classes of an object are alive, while the object is held. -/
def settleObject (o : ObjectId) : Eval Unit :=
  holding [.object o] (change (·.settleObject o))

/-- A member of an object. -/
def memberOf (o : ObjectId) (name : String) : Eval Reference := do
  settleObject o
  update (·.member o name)

/-- The slot of a member of an object, if it exists. -/
def peekAt (o : ObjectId) (name : String) : Eval (Option SlotId) := do
  settleObject o
  update (·.peek o name)

/-- What an identifier stands for. -/
def resolve (name : String) : Eval Reference := do
  settleObject (← look (·.global))
  update (·.resolve name)

/-- Repeats a computation until it gives a value, at most `n` times. -/
@[specialize]
def repeatUntil (m : Eval (Option α)) : Nat → Eval α
  | 0 => outOfFuel
  | n + 1 => do
    match ← m with
    | some a => return a
    | none => repeatUntil m n

def deref (v : Value) : Eval Value :=
  look (·.deref v)

def truth (v : Value) : Eval Bool :=
  look (·.truth v)

def newString (text : String) : Eval Value := do
  let o ← update (·.newString text)
  return .object o

/-- Writes to the output stream, unless it is closed. -/
def offer (text : String) : Eval Bool :=
  fun s =>
    if s.output.refuses text then .ok false s
    else .ok true { s with output := s.output.append text }

/-- Writes to the stream for errors, unless it is closed. -/
def offerError (text : String) : Eval Bool :=
  fun s =>
    if s.errorOutput.refuses text then .ok false s
    else .ok true { s with errorOutput := s.errorOutput.append text }

/-- Writes to the output stream. -/
def write (text : String) : Eval Unit := do
  if ← offer text then return ()
  else fail (.outputFailed Stream.closedMessage)

/-- Writes to the stream for errors. -/
def writeError (text : String) : Eval Unit := do
  if ← offerError text then return ()
  else fail (.outputFailed Stream.closedMessage)

end Eval

end Scripting
