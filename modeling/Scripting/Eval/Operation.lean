import Scripting.Eval.Conversion

/-!
Arithmetic, comparison and stepping. Integers are 64-bit words: sums, differences and products wrap,
and division goes toward zero.
-/

namespace Scripting.Eval

/-- Integer addition if both sides convert to integers; else the operator of an object on the left;
else the texts of both sides, one behind the other. -/
def add (lhs rhs : Value) : Eval Value := do
  let lhs ← deref lhs
  let rhs ← deref rhs
  let left ← attempt (toInt lhs)
  let right ← attempt (toInt rhs)
  match left, right with
  | .ok a, .ok b => return .int (a + b)
  | _, _ =>
    match lhs with
    | .object o => operatorAdd o rhs
    | _ => newString (← look fun s => s.text lhs ++ s.text rhs)

def subtract (lhs rhs : Value) : Eval Value := do
  let a ← toInt lhs
  let b ← toInt rhs
  return .int (a - b)

def multiply (lhs rhs : Value) : Eval Value := do
  let a ← toInt lhs
  let b ← toInt rhs
  return .int (a * b)

def divide (lhs rhs : Value) : Eval Value := do
  let a ← toInt lhs
  let b ← toInt rhs
  if b = 0 then fail .divideByZero else return .int (a / b)

def modulo (lhs rhs : Value) : Eval Value := do
  let a ← toInt lhs
  let b ← toInt rhs
  if b = 0 then fail .moduloByZero else return .int (a % b)

def not (v : Value) : Eval Value := do
  let b ← truth v
  return .bool !b

def bitwiseNot (v : Value) : Eval Value := do
  let n ← toInt v
  return .int (~~~n)

def minus (v : Value) : Eval Value := do
  let n ← toInt v
  return .int (-n)

def plus (v : Value) : Eval Value := do
  let n ← toInt v
  return .int n

/-- Values of different types do not compare, nor do `null` and `undefined`: the result is
`unknown`, and not a fault. -/
def compare (lhs rhs : Value) : Eval Comparison := do
  match ← deref lhs, ← deref rhs with
  | .null, _ | .undefined, _ => return .unknown
  | .int a, .int b => return Comparison.ofInts a b
  | .bool a, .bool b => return if a = b then .equal else .unknown
  | .object o, .object other => operatorCompare o (.object other)
  | .invalid, .invalid => fail (.incomparable ValueType.invalid.text)
  | .reference _, .reference _ => fail (.incomparable ValueType.reference.text)
  | _, _ => return .unknown

/-- Adds `delta` to the integer in the slot of a reference. -/
def step (v : Value) (delta : Int64) : Eval Unit := do
  let r ← toWritableReference v
  let n ← toInt (← look (·.read r))
  assign r (.int (n + delta))

/-- Steps a reference and gives it back, so that the result can be assigned to. -/
def stepBefore (v : Value) (delta : Int64) : Eval Value := do
  step v delta
  return v

/-- Steps a reference and gives the value it had before. -/
def stepAfter (v : Value) (delta : Int64) : Eval Value := do
  let old ← deref v
  step v delta
  return old

def unary (op : UnaryOp) (v : Value) : Eval Value :=
  match op with
  | .not => not v
  | .bitwiseNot => bitwiseNot v
  | .minus => minus v
  | .plus => plus v
  | .preIncrement => stepBefore v 1
  | .preDecrement => stepBefore v (-1)
  | .postIncrement => stepAfter v 1
  | .postDecrement => stepAfter v (-1)

/-- Whether a comparison holds, for an operator that compares. -/
def compared (op : BinaryOp) (c : Comparison) : Bool :=
  match op with
  | .equal => c = .equal
  | .notEqual => c ≠ .equal
  | .less => c = .less
  | .lessEqual => c = .less || c = .equal
  | .greater => c = .greater
  | .greaterEqual => c = .greater || c = .equal
  | _ => false

/-- A binary operator on operands that are both evaluated. -/
def binary (op : BinaryOp) (lhs rhs : Value) : Eval Value := do
  match op with
  | .add => add lhs rhs
  | .subtract => subtract lhs rhs
  | .multiply => multiply lhs rhs
  | .divide => divide lhs rhs
  | .modulo => modulo lhs rhs
  | .and | .or => return .undefined
  | comparison =>
    let c ← compare lhs rhs
    return .bool (compared comparison c)

/-- What an assignment stores. -/
def combine (op : AssignOp) (old new : Value) : Eval Value :=
  match op with
  | .assign => return new
  | .add => add old new
  | .subtract => subtract old new
  | .multiply => multiply old new
  | .divide => divide old new
  | .modulo => modulo old new

end Scripting.Eval
