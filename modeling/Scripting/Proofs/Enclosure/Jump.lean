import Scripting.Proofs.Lockstep.Basic
import Scripting.Proofs.RoundTrip.Legible

/-!
Which jumps a statement encloses.

A `break`, `continue` or `return` goes to the nearest statement or function around it that takes it. It
is open in a statement that it leaves (`Stmt.hasOpen`), and enclosed in one that takes it. The jumps of
a program are all enclosed if none is open in it or in the body of a function inside.
-/

namespace Scripting

variable {definition : FunctionDef}

/-- The statements that end the statements around them. -/
inductive Jump where
  | breakLoop
  | continueLoop
  | returnValue
deriving DecidableEq, Repr, Inhabited

mutual

/-- The statement contains a jump that nothing inside of it takes. A loop takes each `break` and
`continue` of its body, and a `switch` each `break`; a function takes what is inside of it. -/
def Stmt.hasOpen (jump : Jump) : Stmt → Bool
  | .block _ items => Item.anyOpen jump items
  | .ifElse _ _ thenBranch elseBranch =>
    thenBranch.hasOpen jump ||
      (match elseBranch with | some branch => branch.hasOpen jump | none => false)
  | .whileLoop _ _ body => jump = .returnValue && body.hasOpen jump
  | .forLoop _ init _ _ body =>
    (match init with | some clause => clause.hasOpen jump | none => false) ||
      (jump = .returnValue && body.hasOpen jump)
  | .switch _ _ items => jump ≠ .breakLoop && Item.anyOpen jump items
  | .tryCatch _ body _ handler => body.hasOpen jump || handler.hasOpen jump
  | .returnValue .. => jump = .returnValue
  | .breakLoop _ => jump = .breakLoop
  | .continueLoop _ => jump = .continueLoop
  | .expression .. | .throwValue .. | .declare .. | .function .. | .error .. => false

def Item.anyOpen (jump : Jump) : List Item → Bool
  | [] => false
  | .mk _ statement :: rest => statement.hasOpen jump || Item.anyOpen jump rest

end

theorem Item.anyOpen_iff {jump : Jump} {items : List Item} :
    Item.anyOpen jump items = true ↔ ∃ item ∈ items, item.statement.hasOpen jump = true := by
  induction items with
  | nil => simp [Item.anyOpen]
  | cons item rest ih =>
    obtain ⟨label, statement⟩ := item
    simp [Item.anyOpen, ih, Item.statement]

theorem Stmt.hasOpen_ifElse (jump : Jump) (span : Span) (condition : Expr) (thenBranch : Stmt)
    (elseBranch : Option Stmt) :
    (Stmt.ifElse span condition thenBranch elseBranch).hasOpen jump =
      (thenBranch.hasOpen jump || elseBranch.any (Stmt.hasOpen jump)) := by
  cases elseBranch <;> simp only [Stmt.hasOpen, Option.any]

theorem Stmt.hasOpen_forLoop (jump : Jump) (span : Span) (init : Option Stmt)
    (condition update : Option Expr) (body : Stmt) :
    (Stmt.forLoop span init condition update body).hasOpen jump =
      (init.any (Stmt.hasOpen jump) || (jump = .returnValue && body.hasOpen jump)) := by
  cases init <;> simp only [Stmt.hasOpen, Option.any]

/-- No `break` and no `continue` is open in the body of the function. -/
def FunctionDef.takesJumps (definition : FunctionDef) : Bool :=
  !Item.anyOpen .breakLoop definition.body && !Item.anyOpen .continueLoop definition.body

def Expr.takesJumps : Expr → Bool
  | .function _ definition => definition.takesJumps
  | _ => true

/-- The first clause of a `for` counts with the loop. -/
def Stmt.takesJumps : Stmt → Bool
  | .function _ definition => definition.takesJumps
  | .forLoop _ (some clause) _ _ _ => clause.takesJumps
  | _ => true

/-! Every function inside takes the jumps of its body. -/

def Expr.functionsEnclosed (e : Expr) : Bool :=
  e.every Expr.takesJumps Stmt.takesJumps

def Stmt.functionsEnclosed (s : Stmt) : Bool :=
  s.takesJumps && s.inside Expr.takesJumps Stmt.takesJumps

/-- Every jump in the function is enclosed, at any depth. -/
def FunctionDef.enclosed (definition : FunctionDef) : Bool :=
  definition.takesJumps && definition.every Expr.takesJumps Stmt.takesJumps

/-- Every jump in the program is enclosed, at any depth. -/
def Program.enclosed (program : Program) : Bool :=
  program.statements.all fun s => s.functionsEnclosed && !s.hasOpen .breakLoop &&
    !s.hasOpen .continueLoop && !s.hasOpen .returnValue

/-- If the text can be read, every jump in it is enclosed. -/
def EnclosedText (source : String) : Prop :=
  ∀ program, parseProgram source = .ok program → program.isError = false →
    program.enclosed = true

/-! What the parts of such trees satisfy. -/

theorem FunctionDef.every_iff_functionsEnclosed :
    definition.every Expr.takesJumps Stmt.takesJumps = true ↔
      ∀ item ∈ definition.body, item.statement.functionsEnclosed = true := by
  simp only [FunctionDef.every_iff, Stmt.functionsEnclosed, Bool.and_eq_true]

theorem FunctionDef.enclosed_iff :
    definition.enclosed = true ↔ definition.takesJumps = true ∧
      ∀ item ∈ definition.body, item.statement.functionsEnclosed = true := by
  rw [FunctionDef.enclosed, Bool.and_eq_true, FunctionDef.every_iff_functionsEnclosed]

/-- Nothing but a `return` is open in a statement of the body of an enclosed function. -/
theorem FunctionDef.hasOpen_body (h : definition.enclosed = true) {item : Item}
    (hitem : item ∈ definition.body) {jump : Jump} (hjump : item.statement.hasOpen jump = true) :
    jump = .returnValue := by
  obtain ⟨htakes, -⟩ := FunctionDef.enclosed_iff.1 h
  simp only [FunctionDef.takesJumps, Bool.and_eq_true, Bool.not_eq_true'] at htakes
  have hany : Item.anyOpen jump definition.body = true := Item.anyOpen_iff.2 ⟨item, hitem, hjump⟩
  cases jump with
  | breakLoop => rw [htakes.1] at hany; cases hany
  | continueLoop => rw [htakes.2] at hany; cases hany
  | returnValue => rfl

theorem Program.enclosed_iff {program : Program} :
    program.enclosed = true ↔ ∀ s ∈ program.statements, s.functionsEnclosed = true ∧
      ∀ jump, s.hasOpen jump = false := by
  simp only [Program.enclosed, List.all_eq_true, Bool.and_eq_true, Bool.not_eq_true']
  constructor
  · intro h s hs
    obtain ⟨⟨⟨hfunctions, hbreak⟩, hcontinue⟩, hreturn⟩ := h s hs
    refine ⟨hfunctions, fun jump => ?_⟩
    cases jump <;> assumption
  · intro h s hs
    obtain ⟨hfunctions, hopen⟩ := h s hs
    exact ⟨⟨⟨hfunctions, hopen _⟩, hopen _⟩, hopen _⟩

theorem Expr.enclosed_of_function {span : Span}
    (h : (Expr.function span definition).functionsEnclosed = true) :
    definition.enclosed = true := by
  rw [Expr.functionsEnclosed, Expr.every] at h
  exact h

theorem Stmt.enclosed_of_function {span : Span}
    (h : (Stmt.function span definition).functionsEnclosed = true) :
    definition.enclosed = true := by
  rw [Stmt.functionsEnclosed, Stmt.inside] at h
  exact h

theorem Expr.functionsEnclosed_parts {e : Expr} (h : e.functionsEnclosed = true) :
    e.Parts (·.functionsEnclosed = true) (·.functionsEnclosed = true) := by
  cases e <;> simp_all [Expr.functionsEnclosed, Expr.every, Expr.Parts, Expr.everyAll_iff,
    FunctionDef.every_iff_functionsEnclosed]

theorem Stmt.functionsEnclosed_parts {s : Stmt} (h : s.functionsEnclosed = true) :
    s.Parts (·.functionsEnclosed = true) (·.functionsEnclosed = true) := by
  rw [Stmt.functionsEnclosed, Bool.and_eq_true] at h
  cases s with
  | ifElse _ _ _ branch =>
    cases branch <;> simp_all [Expr.functionsEnclosed, Stmt.functionsEnclosed, Stmt.inside, Stmt.Parts]
  | forLoop _ init condition update _ =>
    -- the first clause is checked with the loop
    cases init <;> cases condition <;> cases update <;>
      simp_all [Expr.functionsEnclosed, Stmt.functionsEnclosed, Stmt.inside, Stmt.Parts, Stmt.takesJumps]
  | returnValue _ value | declare _ _ _ value =>
    cases value <;> simp_all [Expr.functionsEnclosed, Stmt.inside, Stmt.Parts]
  | _ => simp_all [Expr.functionsEnclosed, Stmt.functionsEnclosed, Stmt.inside, Stmt.Parts,
      Item.everyAll_iff, FunctionDef.every_iff]

end Scripting
