import Scripting.Eval.Interp

/-!
Expressions. Operands are evaluated from left to right. What an operand evaluates to is held while
the operands behind it are evaluated.
-/

namespace Scripting.Eval

/-- The name of the member through which objects are constructed. -/
def constructorName : String := "__construct"

def special : Special → Eval Value
  | .this => do
    let o ← look (·.thisObject)
    return .object o
  | .global => do
    let o ← look (·.global)
    return .object o
  | .null => return .null
  | .true => return .bool Bool.true
  | .false => return .bool Bool.false
  | .undefined => return .undefined

/-- Arguments are passed by value. -/
def arguments (i : Interp) : List Expr → Eval (List Value)
  | [] => return []
  | e :: rest => do
    let v ← deref (← i.evaluate e)
    let vs ← holding v.nodes (arguments i rest)
    return v :: vs

/-- The operators `&&` and `||` evaluate their right side only if the left one does not decide. -/
def binaryExpr (i : Interp) (op : BinaryOp) (left right : Expr) : Eval Value := do
  let lhs ← i.evaluate left
  match op with
  | .and =>
    if ← truth lhs then
      let rhs ← i.evaluate right
      return .bool (← truth rhs)
    else return .bool false
  | .or =>
    if ← truth lhs then return .bool true
    else
      let rhs ← i.evaluate right
      return .bool (← truth rhs)
  | op =>
    let rhs ← holding lhs.nodes (i.evaluate right)
    binary op lhs rhs

/-- The target of an assignment is bound before the new value is evaluated. -/
def assignExpr (i : Interp) (op : AssignOp) (target value : Expr) : Eval Value := do
  let old ← i.evaluate target
  let r ← toWritableReference old
  let rhs ← holding old.nodes (i.evaluate value)
  let new ← combine op old rhs
  assign r new
  return .reference r

/-- An object is constructed by calling a member of the object behind `new`; that member is looked up
before the arguments are evaluated. -/
def constructExpr (i : Interp) (callee : Expr) (args : List Expr) : Eval Value := do
  let wrapper ← toObject (← i.evaluate callee)
  match ← peekAt wrapper constructorName with
  | none => fail (.notInstantiable (← look (·.typeName wrapper)))
  | some slot =>
    let values ← holding [.slot slot, .object wrapper] (arguments i args)
    i.call (.reference ⟨slot, some wrapper, some constructorName⟩) values

def evaluateStep (i : Interp) : Expr → Eval Value
  | .integer _ n => return .int n
  | .string _ text => newString text
  | .identifier _ name => do
    let r ← resolve name
    return .reference r
  | .special _ value => special value
  | .member _ object name => do
    let o ← toObject (← i.evaluate object)
    let r ← memberOf o name
    return .reference r
  | .call _ callee args => do
    let f ← i.evaluate callee
    let values ← holding f.nodes (arguments i args)
    i.call f values
  | .subscript _ object index => do
    let o ← toObject (← i.evaluate object)
    let key ← deref (← holding [.object o] (i.evaluate index))
    holding (.object o :: key.nodes) (operatorSubscript o key)
  | .construct _ callee args => constructExpr i callee args
  | .unary _ op operand => do
    let v ← i.evaluate operand
    unary op v
  | .binary _ op left right => binaryExpr i op left right
  | .assign _ op target value => assignExpr i op target value
  | .function _ definition => do
    let o ← update (·.newFunction (.script definition))
    return .object o
  | .error _ _ => fail .invalidExpression

end Scripting.Eval
