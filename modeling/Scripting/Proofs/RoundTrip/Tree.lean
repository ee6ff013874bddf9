import Scripting.Proofs.Parts
import Scripting.Tree.Printer

/-!
Trees without spans, and properties of all nodes of a tree.
-/

namespace Scripting

mutual

/-- The same expression, with every span empty. -/
def Expr.bare : Expr → Expr
  | .integer _ value => .integer {} value
  | .string _ text => .string {} text
  | .identifier _ name => .identifier {} name
  | .special _ value => .special {} value
  | .member _ object name => .member {} object.bare name
  | .call _ callee args => .call {} callee.bare (Expr.bareAll args)
  | .subscript _ object index => .subscript {} object.bare index.bare
  | .construct _ callee args => .construct {} callee.bare (Expr.bareAll args)
  | .unary _ op operand => .unary {} op operand.bare
  | .binary _ op left right => .binary {} op left.bare right.bare
  | .assign _ op target value => .assign {} op target.bare value.bare
  | .function _ definition => .function {} definition.bare
  | .error _ errors => .error {} errors

def Expr.bareAll : List Expr → List Expr
  | [] => []
  | e :: rest => e.bare :: Expr.bareAll rest

def FunctionDef.bare : FunctionDef → FunctionDef
  | .mk _ name params body => .mk {} name params (Item.bareAll body)

def Item.bareAll : List Item → List Item
  | [] => []
  | .mk label statement :: rest => .mk label statement.bare :: Item.bareAll rest

/-- The same statement, with every span empty. -/
def Stmt.bare : Stmt → Stmt
  | .expression _ expr => .expression {} expr.bare
  | .block _ items => .block {} (Item.bareAll items)
  | .ifElse _ condition thenBranch elseBranch =>
    .ifElse {} condition.bare thenBranch.bare
      (match elseBranch with | some branch => some branch.bare | none => none)
  | .whileLoop _ condition body => .whileLoop {} condition.bare body.bare
  | .forLoop _ init condition update body =>
    .forLoop {} (match init with | some clause => some clause.bare | none => none)
      (match condition with | some e => some e.bare | none => none)
      (match update with | some e => some e.bare | none => none) body.bare
  | .switch _ subject items => .switch {} subject.bare (Item.bareAll items)
  | .tryCatch _ body binding handler => .tryCatch {} body.bare binding handler.bare
  | .throwValue _ value => .throwValue {} value.bare
  | .returnValue _ value =>
    .returnValue {} (match value with | some e => some e.bare | none => none)
  | .breakLoop _ => .breakLoop {}
  | .continueLoop _ => .continueLoop {}
  | .declare _ kind name init =>
    .declare {} kind name (match init with | some e => some e.bare | none => none)
  | .function _ definition => .function {} definition.bare
  | .error _ errors => .error {} errors

end

/-- The same program, with every span of its trees empty. -/
def Program.bare (p : Program) : Program :=
  ⟨p.statements.map Stmt.bare, p.errors⟩

mutual

/-- Holds if `p` holds for every expression in an expression, and `q` for every statement in it. -/
def Expr.every (p : Expr → Bool) (q : Stmt → Bool) : Expr → Bool
  | .integer span value => p (.integer span value)
  | .string span text => p (.string span text)
  | .identifier span name => p (.identifier span name)
  | .special span value => p (.special span value)
  | .member span object name => p (.member span object name) && object.every p q
  | .call span callee args =>
    p (.call span callee args) && callee.every p q && Expr.everyAll p q args
  | .subscript span object index =>
    p (.subscript span object index) && object.every p q && index.every p q
  | .construct span callee args =>
    p (.construct span callee args) && callee.every p q && Expr.everyAll p q args
  | .unary span op operand => p (.unary span op operand) && operand.every p q
  | .binary span op left right =>
    p (.binary span op left right) && left.every p q && right.every p q
  | .assign span op target value =>
    p (.assign span op target value) && target.every p q && value.every p q
  | .function span definition => p (.function span definition) && definition.every p q
  | .error span errors => p (.error span errors)

def Expr.everyAll (p : Expr → Bool) (q : Stmt → Bool) : List Expr → Bool
  | [] => true
  | e :: rest => e.every p q && Expr.everyAll p q rest

def FunctionDef.every (p : Expr → Bool) (q : Stmt → Bool) : FunctionDef → Bool
  | .mk _ _ _ body => Item.everyAll p q body

def Item.everyAll (p : Expr → Bool) (q : Stmt → Bool) : List Item → Bool
  | [] => true
  | .mk _ statement :: rest =>
    q statement && statement.inside p q && Item.everyAll p q rest

/-- Holds if `p` holds for every expression in a statement, and `q` for every other statement in it
that is not the first clause of a `for`. -/
def Stmt.inside (p : Expr → Bool) (q : Stmt → Bool) : Stmt → Bool
  | .expression _ expr => expr.every p q
  | .block _ items => Item.everyAll p q items
  | .ifElse _ condition thenBranch elseBranch =>
    condition.every p q && (q thenBranch && thenBranch.inside p q) &&
      (match elseBranch with | some branch => q branch && branch.inside p q | none => true)
  | .whileLoop _ condition body => condition.every p q && (q body && body.inside p q)
  | .forLoop _ init condition update body =>
    (match init with | some clause => clause.inside p q | none => true) &&
      (match condition with | some e => e.every p q | none => true) &&
      (match update with | some e => e.every p q | none => true) && (q body && body.inside p q)
  | .switch _ subject items => subject.every p q && Item.everyAll p q items
  | .tryCatch _ body _ handler =>
    (q body && body.inside p q) && (q handler && handler.inside p q)
  | .throwValue _ value => value.every p q
  | .returnValue _ value => (match value with | some e => e.every p q | none => true)
  | .breakLoop _ | .continueLoop _ => true
  | .declare _ _ _ init => (match init with | some e => e.every p q | none => true)
  | .function _ definition => definition.every p q
  | .error .. => true

end

theorem Expr.bareAll_eq (es : List Expr) : Expr.bareAll es = es.map Expr.bare := by
  induction es with
  | nil => rfl
  | cons e rest ih => rw [Expr.bareAll, ih, List.map_cons]

theorem Stmt.bare_forLoop (span : Span) (init : Option Stmt) (condition update : Option Expr)
    (body : Stmt) :
    (Stmt.forLoop span init condition update body).bare =
      .forLoop {} (init.map Stmt.bare) (condition.map Expr.bare) (update.map Expr.bare)
        body.bare := by
  cases init <;> cases condition <;> cases update <;> simp only [Stmt.bare, Option.map]

theorem Stmt.inside_forLoop {p : Expr → Bool} {q : Stmt → Bool} (span : Span)
    (init : Option Stmt) (condition update : Option Expr) (body : Stmt) :
    (Stmt.forLoop span init condition update body).inside p q =
      (init.all (·.inside p q) && condition.all (·.every p q) && update.all (·.every p q) &&
        (q body && body.inside p q)) := by
  cases init <;> cases condition <;> cases update <;> simp only [Stmt.inside, Option.all]

theorem Expr.everyAll_iff {p : Expr → Bool} {q : Stmt → Bool} {es : List Expr} :
    Expr.everyAll p q es = true ↔ ∀ e ∈ es, e.every p q = true := by
  induction es with
  | nil => simp [Expr.everyAll]
  | cons e rest ih => simp [Expr.everyAll, ih]

theorem Item.everyAll_iff {p : Expr → Bool} {q : Stmt → Bool} {items : List Item} :
    Item.everyAll p q items = true ↔
      ∀ item ∈ items, q item.statement = true ∧ item.statement.inside p q = true := by
  induction items with
  | nil => simp [Item.everyAll]
  | cons item rest ih =>
    obtain ⟨label, statement⟩ := item
    simp [Item.everyAll, ih, Item.statement]

theorem FunctionDef.every_iff {p : Expr → Bool} {q : Stmt → Bool} {definition : FunctionDef} :
    definition.every p q = true ↔
      ∀ item ∈ definition.body, q item.statement = true ∧ item.statement.inside p q = true := by
  obtain ⟨span, name, params, body⟩ := definition
  rw [FunctionDef.every, Item.everyAll_iff, FunctionDef.body]

/-- Two properties of all nodes of a tree, taken together. -/
theorem Stmt.inside_and {p p' : Expr → Bool} {q q' : Stmt → Bool} (s : Stmt) :
    s.inside p q = true → s.inside p' q' = true →
      s.inside (fun e => p e && p' e) (fun s => q s && q' s) = true := by
  induction s using Stmt.of_parts (p := fun e => e.every p q = true → e.every p' q' = true →
    e.every (fun e => p e && p' e) (fun s => q s && q' s) = true) with
  | expr e ih h h' =>
    cases e <;> simp_all [Expr.every, Expr.Parts, Expr.everyAll_iff, FunctionDef.every_iff]
  | stmt s ih =>
    intro h h'
    cases s with
    | ifElse _ _ _ branch => cases branch <;> simp_all [Stmt.inside, Stmt.Parts]
    | forLoop _ init condition update _ =>
      cases init <;> cases condition <;> cases update <;> simp_all [Stmt.inside, Stmt.Parts]
    | returnValue _ value | declare _ _ _ value => cases value <;> simp_all [Stmt.inside, Stmt.Parts]
    | _ => simp_all [Stmt.inside, Stmt.Parts, Item.everyAll_iff, FunctionDef.every_iff]

/-- Holds if `p` holds for every expression in a program, and `q` for every statement in it that is not
the first clause of a `for`. -/
def Program.every (p : Expr → Bool) (q : Stmt → Bool) (program : Program) : Bool :=
  program.statements.all fun statement => q statement && statement.inside p q

/-! What a tree needs to be written in a way that can be read back. -/

/-- A string literal has no escapes, so a quote cannot be written in it. -/
def Expr.lacksQuote : Expr → Bool
  | .string _ text => !text.toList.contains '"'
  | _ => true

/-- What is left of an expression without the accesses to members behind it. -/
def Expr.base : Expr → Expr
  | .member _ object _ => object.base
  | e => e

/-- What `new` constructs from is written without parentheses around it. -/
def Expr.constructsPlainly : Expr → Bool
  | .construct _ callee _ =>
    match callee.base with
    | .call .. | .subscript .. | .construct .. => false
    | _ => true
  | _ => true

/-- Holds for an expression that is written with the keyword `function` and a name in front. -/
def Expr.startsNamed : Expr → Bool
  | .call _ callee _ => callee.startsNamed
  | .member _ object _ => object.startsNamed
  | .subscript _ object _ => object.startsNamed
  | .function _ definition => definition.name.isSome
  | _ => false

/-- A statement that is written with the keyword `function` and a name in front is a declaration. -/
def Stmt.startsPlainly : Stmt → Bool
  | .expression _ expr => !expr.startsNamed
  | _ => true

end Scripting
