import Scripting.Proofs.RoundTrip.Image
import Scripting.Proofs.RoundTrip.Rereading

/-!
The text of a program is read back as the same program.

A program that is read without errors can be written down and read again, unless it has one of three
things in it that are written in a way that means something else. For each of the three there is a
program that is not read back because of it.
-/

namespace Scripting

theorem Stmt.legible {s : Stmt} (hread : s.Read) (hquote : s.inside Expr.lacksQuote fun _ => true)
    (hconstruct : s.inside Expr.constructsPlainly fun _ => true)
    (hnode : s.startsPlainly = true) (hstart : s.inside (fun _ => true) Stmt.startsPlainly) :
    s.Legible := by
  refine ⟨?_, ?_⟩
  · rw [Stmt.isLegible, hread.node, hnode]
    rfl
  · have hall := s.inside_and (s.inside_and (s.inside_and hread.inside hquote) hconstruct) hstart
    simp only [Bool.and_true] at hall
    exact hall

/-- What is written in a way that means something else. -/
inductive Obstacle where
  /-- A string literal with a quote in it. -/
  | quote
  /-- A construction from what is itself a call, a subscript or a construction, apart from accesses to
  its members. -/
  | construction
  /-- A statement that starts with the keyword `function` and a name, but declares nothing. -/
  | function
deriving DecidableEq, Repr

/-- Holds for a program that does not have the obstacle in it anywhere. -/
def Program.avoids (program : Program) : Obstacle → Bool
  | .quote => program.every Expr.lacksQuote fun _ => true
  | .construction => program.every Expr.constructsPlainly fun _ => true
  | .function => program.every (fun _ => true) Stmt.startsPlainly

/-- The text of a program is read without errors, as the same program with other spans. -/
def Program.ReadsBack (program : Program) : Prop :=
  ∃ again, parseProgram program.text = .ok again ∧ again.isError = false ∧ again.bare = program.bare

theorem Stmt.declares_bare (s : Stmt) : s.bare.declares = s.declares := by
  cases s with
  | ifElse _ _ _ other => cases other <;> rfl
  | forLoop => rw [Stmt.bare_forLoop]; rfl
  | returnValue _ value => cases value <;> rfl
  | declare _ _ _ init => cases init <;> rfl
  | _ => rfl

theorem needsScope_bareAll (items : List Item) :
    needsScope (Item.bareAll items) = needsScope items := by
  induction items with
  | nil => rfl
  | cons item items ih =>
    obtain ⟨label, s⟩ := item
    simp only [needsScope, Item.bareAll, List.any_cons, Item.statement] at ih ⊢
    rw [s.declares_bare, ih]

theorem Program.readsBack {source : String} {program : Program}
    (h : parseProgram source = .ok program) (herror : program.isError = false)
    (havoids : ∀ obstacle, program.avoids obstacle = true) : program.ReadsBack := by
  have herrors : program.errors = [] := by simpa [Program.isError] using herror
  have hquote := havoids .quote
  have hconstruct := havoids .construction
  have hstart := havoids .function
  simp only [Program.avoids, Program.every, List.all_eq_true, Bool.and_eq_true, Bool.true_and]
    at hquote hconstruct hstart
  have hlegible : ∀ s ∈ program.statements, s.Legible := fun s hs =>
    Stmt.legible (Program.read h herrors s hs) (hquote s hs) (hconstruct s hs) (hstart s hs).1
      (hstart s hs).2
  obtain ⟨again, hagain, hbare⟩ := Program.reread hlegible
  have hempty : again.errors = [] := congrArg Program.errors hbare
  refine ⟨again, hagain, by simp [Program.isError, hempty], ?_⟩
  rw [hbare, Program.bare, herrors]

/-- A source whose program has the obstacle, and no other, and is not read back. -/
def Obstacle.source : Obstacle → String
  | .quote => "'\"';"
  | .construction => "new (a())();"
  | .function => "(function f() \x7b\x7d)();"

def Stmt.isCall : Stmt → Bool
  | .expression _ (.call ..) => true
  | _ => false

theorem Stmt.isCall_bare (s : Stmt) : s.bare.isCall = s.isCall := by
  cases s with
  | expression _ e => cases e <;> rfl
  | ifElse _ _ _ other => cases other <;> rfl
  | forLoop => rw [Stmt.bare_forLoop]; rfl
  | returnValue _ value => cases value <;> rfl
  | declare _ _ _ init => cases init <;> rfl
  | _ => rfl

/-- Holds for a program with a statement that is a call. -/
def Program.calls (program : Program) : Bool :=
  program.statements.any Stmt.isCall

theorem Program.calls_bare (program : Program) : program.bare.calls = program.calls := by
  simp [Program.calls, Program.bare, Function.comp_def, Stmt.isCall_bare]

/-- What is read from the text of the program has an error, or calls where the program does not. -/
def Program.differs (program : Program) : Bool :=
  match parseProgram program.text with
  | .ok again => again.isError || again.calls != program.calls
  | .error _ => true

theorem Program.not_readsBack {program : Program} (h : program.differs = true) :
    ¬program.ReadsBack := by
  rintro ⟨again, hagain, herror, hbare⟩
  have hcall := congrArg Program.calls hbare
  rw [Program.calls_bare, Program.calls_bare] at hcall
  simp [Program.differs, hagain, herror, hcall] at h

theorem exists_program {source : String} {p : Program → Bool}
    (h : (parseProgram source).toOption.any p = true) :
    ∃ program, parseProgram source = .ok program ∧ p program = true := by
  cases hparse : parseProgram source with
  | error d =>
    rw [hparse] at h
    cases h
  | ok program =>
    rw [hparse] at h
    exact ⟨program, rfl, h⟩

/-- All obstacles. -/
def Obstacle.all : List Obstacle :=
  [.quote, .construction, .function]

theorem Obstacle.mem_all (obstacle : Obstacle) : obstacle ∈ Obstacle.all := by
  cases obstacle <;> decide

theorem Obstacle.parse_source (obstacle : Obstacle) :
    ∃ program, parseProgram obstacle.source = .ok program ∧ program.isError = false ∧
      (∀ other, program.avoids other = (other != obstacle)) ∧ program.differs = true := by
  have hcheck : (parseProgram obstacle.source).toOption.any (fun program =>
      !program.isError && Obstacle.all.all (fun other =>
        program.avoids other == (other != obstacle)) && program.differs) = true := by
    cases obstacle <;> decide +kernel
  obtain ⟨program, hprogram, h⟩ := exists_program hcheck
  simp only [Bool.and_eq_true, Bool.not_eq_true', List.all_eq_true, beq_iff_eq] at h
  exact ⟨program, hprogram, h.1.1, fun other => h.1.2 other other.mem_all, h.2⟩

/-- Every program that is read without errors and avoids the obstacles is read back from its text as
the same program: all but the spans of its trees is kept, the labels of `switch` bodies and whether a
block has a scope of its own included. No obstacle can be left out. -/
theorem display_round_trip :
    (∀ source program, parseProgram source = .ok program → program.isError = false →
      (∀ obstacle, program.avoids obstacle = true) → program.ReadsBack) ∧
    (∀ items, needsScope (Item.bareAll items) = needsScope items) ∧
    (∀ obstacle, ∃ source program, parseProgram source = .ok program ∧ program.isError = false ∧
      (∀ other, program.avoids other = (other != obstacle)) ∧ ¬program.ReadsBack) := by
  refine ⟨fun _ _ => Program.readsBack, needsScope_bareAll, fun obstacle => ?_⟩
  obtain ⟨program, hparse, herror, havoids, hdiffers⟩ := obstacle.parse_source
  exact ⟨obstacle.source, program, hparse, herror, havoids, Program.not_readsBack hdiffers⟩

/-- A source with an `else` behind a loop, a negative label, a named function in front of a `for`, and
statements without their `;`. -/
def nestedSource : String :=
  "if (a) while (b) c; else switch (-x) \x7b case -1: y++; default: let z; \x7d " ++
  "for (function g(p, q) \x7breturn\x7d; i < 3;) try new A.if(1, 'x')[0] catch (e) throw e"

theorem display_round_trip_nested :
    ∃ program, parseProgram nestedSource = .ok program ∧ program.isError = false ∧
      (∀ obstacle, program.avoids obstacle = true) ∧ program.ReadsBack := by
  have hcheck : (parseProgram nestedSource).toOption.any (fun program =>
      !program.isError && Obstacle.all.all program.avoids) = true := by
    decide +kernel
  obtain ⟨program, hprogram, h⟩ := exists_program hcheck
  simp only [Bool.and_eq_true, Bool.not_eq_true', List.all_eq_true] at h
  have havoids : ∀ obstacle, program.avoids obstacle = true := fun obstacle =>
    h.2 obstacle obstacle.mem_all
  exact ⟨program, hprogram, h.1, havoids, display_round_trip.1 _ program hprogram h.1 havoids⟩

end Scripting
