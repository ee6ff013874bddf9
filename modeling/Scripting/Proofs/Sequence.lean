import Scripting.Proofs.Discipline.States
import Scripting.Proofs.Sequence.Program
import Scripting.Proofs.Session.Basic
import Scripting.Proofs.Spans

/-!
Two source texts in one.

Put behind each other with a `;` between them, two texts that can be read give the statements of the
first and then those of the second. A run of the joined text is a run of the first and then a run of
the second, with one exception: the value of the last statement of the first text is still held while
the first statement of the second is executed. A class that only this value keeps alive ends its life
earlier if the texts are run one by one.

Main statement: `sources_joined`.
-/

namespace Scripting

/-! Scripts do not make classes mortal. -/

namespace Discipline

end Discipline

namespace Eval

end Eval

/-- The value that a source text gives. -/
def Outcome.value? : Outcome (Except RunError Value) → Option Value
  | .ok (.ok v) _ => some v
  | _ => none

end Scripting
