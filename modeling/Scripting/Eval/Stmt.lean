import Scripting.Eval.Interp

/-!
Statements. A statement ends normally with a value, or with a `break`, `continue` or `return` that an
enclosing statement or call has to take.
-/

namespace Scripting.Eval

/-- Runs items one after the other, and gives the value of the last. The value of an item is held until
the next one has run. -/
def runItems (i : Interp) (last : Value) : List Item → Eval Completion
  | [] => return .normal last
  | item :: rest => do
    match ← holding last.nodes (i.execute item.statement) with
    | .normal v => runItems i v rest
    | abrupt => return abrupt

/-- Runs a computation in a block scope if `own` holds. -/
@[inline]
def inScope {α : Type} (own : Bool) (m : Eval α) : Eval α :=
  if own then inFrame (·.pushBlock) m else m

def runBlock (i : Interp) (items : List Item) : Eval Completion :=
  inScope (needsScope items) (runItems i .undefined items)

/-- What the completion of a body means for the loop around it: `none` to go on, or the end. -/
def afterBody : Completion → Option Completion
  | .normal _ | .continued => none
  | .broken => some (.normal .undefined)
  | .returned v => some (.returned v)

/-- One turn of a `while` loop. -/
def whileTurn (i : Interp) (condition : Expr) (body : Stmt) : Eval (Option Completion) := do
  let test ← i.evaluate condition
  if ← truth test then
    let c ← i.execute body
    return afterBody c
  else return some (.normal .undefined)

/-- A condition that is left out holds. -/
def forTest (i : Interp) : Option Expr → Eval Bool
  | some condition => do
    let test ← i.evaluate condition
    truth test
  | none => return true

def forUpdate (i : Interp) : Option Expr → Eval Unit
  | some update => do
    let _ ← i.evaluate update
    return ()
  | none => return ()

/-- One turn of a `for` loop. -/
def forTurn (i : Interp) (condition update : Option Expr) (body : Stmt) :
    Eval (Option Completion) := do
  if ← forTest i condition then
    match afterBody (← i.execute body) with
    | some c => return some c
    | none =>
      forUpdate i update
      return none
  else return some (.normal .undefined)

/-- The first clause of a `for` loop; how it ends does not matter. -/
def forStart (i : Interp) : Option Stmt → Eval Unit
  | some init => do
    let _ ← i.execute init
    return ()
  | none => return ()

/-- Where a `switch` starts: at the first label equal to the subject, else at the first `default`. -/
def selectSection (subject : Value) (fallback : Option (List Item)) :
    List Item → Eval (Option (List Item))
  | [] => return fallback
  | item :: rest =>
    match item.label with
    | some (.value n) => do
      let c ← compare subject (.int n)
      if c = .equal then return some (item :: rest)
      else selectSection subject fallback rest
    | some .default => selectSection subject (fallback <|> some (item :: rest)) rest
    | none => selectSection subject fallback rest

/-- Runs the items of a section; a `break` ends them normally. -/
def runSection (i : Interp) (last : Value) : List Item → Eval Completion
  | [] => return .normal last
  | item :: rest => do
    match ← holding last.nodes (i.execute item.statement) with
    | .normal v => runSection i v rest
    | .broken => return .normal last
    | abrupt => return abrupt

/-- A section runs up to the next label. -/
def runSwitch (i : Interp) (subject : Value) (items : List Item) : Eval Completion := do
  match ← selectSection subject none items with
  | some (item :: rest) => runSection i .undefined (item :: rest.takeWhile (·.label.isNone))
  | _ => return .normal .undefined

/-- Runs a handler in a scope that binds the thrown value. -/
def handle (i : Interp) (binding : String) (handler : Stmt) (e : Exception) : Eval Completion :=
  inFrame (·.pushBlock) do
    let _ ← update fun s => s.allocate s.currentScope binding e.value false
    i.execute handler

/-- The value of an expression, which may be left out. -/
def optionalValue (i : Interp) : Option Expr → Eval Value
  | some e => do
    let v ← i.evaluate e
    deref v
  | none => return .undefined

def executeStep (i : Interp) : Stmt → Eval Completion
  | .expression _ e => do
    let v ← i.evaluate e
    return .normal v
  | .block _ items => runBlock i items
  | .ifElse _ condition thenBranch elseBranch => do
    let test ← i.evaluate condition
    if ← truth test then i.execute thenBranch
    else
      match elseBranch with
      | some branch => i.execute branch
      | none => return .normal .undefined
  | .whileLoop _ condition body => repeatUntil (whileTurn i condition body) i.fuel
  | .forLoop _ init condition update body =>
    inFrame (·.pushBlock) do
      forStart i init
      repeatUntil (forTurn i condition update body) i.fuel
  | .switch _ subject items => do
    let v ← deref (← i.evaluate subject)
    holding v.nodes (inScope (needsScope items) (runSwitch i v items))
  | .tryCatch _ body binding handler => do
    match ← attempt (i.execute body) with
    | .ok c => return c
    | .error e => handle i binding handler e
  | .throwValue _ e => do
    let v ← i.evaluate e
    throwValue v
  | .returnValue _ e => do
    let v ← optionalValue i e
    return .returned v
  | .breakLoop _ => return .broken
  | .continueLoop _ => return .continued
  | .declare _ kind name init => do
    let v ← optionalValue i init
    let _ ← update fun s => s.allocate s.currentScope name v (kind = .constDecl)
    return .normal .undefined
  | .function _ definition => do
    let o ← update (·.newFunction (.script definition))
    match definition.name with
    | some name =>
      let _ ← update fun s => s.allocate s.currentScope name (.object o) false
      return .normal .undefined
    | none => return .normal .undefined
  | .error _ _ => fail .invalidStatement

end Scripting.Eval
