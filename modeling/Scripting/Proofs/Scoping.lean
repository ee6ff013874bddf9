import Scripting.Proofs.Isolation
import Scripting.Proofs.Scoping.Hidden

/-!
Which names a statement binds in the scope in which it runs.

A block runs in a scope of its own if one of its items is a declaration. A declaration that is the
branch of an `if`, the body of a loop or what a `try` tries is no item of the block around it, so it
binds its name one scope further out: it is exposed there (`Stmt.exposed`). Main statement: what a block
executes in a local scope binds there at most the names that the block exposes (`blocks_bind_exposed`);
and a block may bind one there (`block_binds_outside`).
-/

namespace Scripting

mutual

/-- The names that a statement can bind in the scope in which it runs. -/
def Stmt.exposed : Stmt → List String
  | .declare _ _ name _ => [name]
  | .function _ definition => definition.name.toList
  | .block _ items | .switch _ _ items => if needsScope items then [] else Item.exposedAll items
  | .ifElse _ _ thenBranch elseBranch =>
    thenBranch.exposed ++ (match elseBranch with | some branch => branch.exposed | none => [])
  | .whileLoop _ _ body | .tryCatch _ body _ _ => body.exposed
  | .expression .. | .forLoop .. | .throwValue .. | .returnValue .. | .breakLoop _ | .continueLoop _
  | .error .. => []

def Item.exposedAll : List Item → List String
  | [] => []
  | .mk _ statement :: rest => statement.exposed ++ Item.exposedAll rest

end

theorem Item.exposed_subset {items : List Item} {item : Item} (h : item ∈ items) :
    item.statement.exposed ⊆ Item.exposedAll items := by
  induction items with
  | nil => cases h
  | cons first rest ih =>
    obtain ⟨label, statement⟩ := first
    rw [Item.exposedAll]
    rcases List.mem_cons.1 h with rfl | h
    · exact List.subset_append_left _ _
    · exact List.subset_append_of_subset_right _ (ih h)

theorem Stmt.exposed_ifElse (span : Span) (condition : Expr) (thenBranch : Stmt)
    (elseBranch : Option Stmt) :
    (Stmt.ifElse span condition thenBranch elseBranch).exposed =
      thenBranch.exposed ++ (elseBranch.map Stmt.exposed).getD [] := by
  cases elseBranch <;> simp only [Stmt.exposed, Option.map, Option.getD]

namespace Discipline

variable {p : ObjectId} {names : List String} {s : State} {n : Nat} {α : Type}

/-- What runs in a frame of its own leaves the members of the hidden object as they were. -/
theorem Enters.inFrame {push : State → State} {m : Eval α} {Q P : Duo → α → α → Prop}
    (h : Enters p s (push s)) (hm : (hidden p [] True).twin.Keeps ⟨push s, push s⟩ Q m m)
    (hQ : ∀ τ a b, Q τ a b → P (τ.map State.popFrame) a b) :
    (hidden p names False).twin.Keeps ⟨s, s⟩ P (Eval.inFrame push m) (Eval.inFrame push m) := by
  have hback : ∀ s', (push s).Rebinds [] p s' → s.Rebinds names p s'.popFrame :=
    fun s' hl => (h.back hl).mono (List.nil_subset _)
  unfold Lockstep.Keeps Eval.inFrame at *
  dsimp only at hm ⊢
  generalize m (push s) = outcome at hm ⊢
  cases hm with
  | ok hinv hl hresult =>
    obtain ⟨_, ⟨⟩, hs'⟩ := hinv
    exact .ok ⟨_, rfl, hs'.1.popFrame, nofun⟩ (hback _ hl) (hQ _ _ _ hresult)
  | thrown hinv hl hraised =>
    obtain ⟨_, ⟨⟩, hs'⟩ := hinv
    exact .thrown ⟨_, rfl, hs'.1.popFrame, nofun⟩ (hback _ hl) hraised
  | outOfFuel => exact .outOfFuel
  | needsFile path => exact .needsFile path
  | lacking h => exact False.elim h

theorem hidden_ended {names' : List String} {outside outside' : Prop} {τ : Duo} {c c' : Completion}
    (h : (hidden p names outside).twin.Ended τ c c') :
    (hidden p names' outside').twin.Ended (τ.map State.popFrame) c c' := by
  cases h with
  | normal h => exact .normal h
  | returned h => exact .returned h
  | broken => exact .broken
  | continued => exact .continued

/-- Outside of the hidden object everything goes by the rules, within any bound. -/
theorem outside_interprets (p : ObjectId) (n : Nat) :
    (hidden p [] True).twin.Interprets (Eval.interp n) (Eval.interp n) :=
  (outside_lawful p).twin.interprets (outside_hosts p) n

/-- A call runs in a frame of its own. -/
theorem hidden_call {v v' : Value} {args : List Value} {σ : Duo}
    (hs : (hidden p names False).twin.inv σ) (hv : (hidden p names False).twin.good σ v v')
    (hargs : ∀ a ∈ args, a.Avoids p) :
    (hidden p names False).twin.Keeps σ (hidden p names False).twin.good
      (Eval.callStep (Eval.interp n) v args) (Eval.callStep (Eval.interp n) v' args) := by
  have L := (hidden_core p names False).twin
  have B := (outside_lawful p).twin
  obtain ⟨rfl, hv⟩ := hv
  unfold Eval.callStep
  apply L.derefs hs ⟨rfl, hv⟩
  intro d hd
  cases d with
  | object callee =>
    obtain ⟨s, rfl, hs⟩ := hs
    rw [Lockstep.keeps_look]
    have hcallee := L.good_of_stored (σ := ⟨s, s⟩) hd
    refine L.holding ⟨s, rfl, hs⟩ (.append (.append (.value hcallee) (.value ⟨rfl, hv⟩))
      (L.handed_stored hargs)) ?_ fun _ _ _ _ _ h => h
    rintro _ ⟨s', rfl, hs'⟩ _
    have hcontainer : ∀ o, Eval.containerOf v = some o → o ≠ p := by
      rintro o ho rfl
      cases v with
      | reference r => exact hv ho
      | _ => cases ho
    have henter := enters_pushCall hs'.1 (Eval.frameName s v callee (Eval.containerOf v)) hcontainer
    apply henter.inFrame (Q := (hidden p [] True).twin.good) ?_ fun _ _ _ h => h
    -- The scope of the call is new, so what the call does lies outside of the hidden object.
    have I := outside_interprets p n
    refine B.callObject I (fun _ _ h => ⟨rfl, h⟩) ?_ henter.inv hd ?_ hargs
    · intro f h τ hf hcallback hτ
      exact outside_hosts p I (B.hostOf henter.inv hd hf hcallback) hτ
    · cases hfound : Eval.containerOf v with
      | none => exact hd
      | some o => exact hcontainer o hfound
  | _ => exact L.fail _ hs

/-- Evaluating expressions binds no names in the current scope. -/
theorem hidden_evaluates (p : ObjectId) (names : List String) (n : Nat) :
    (hidden p names False).twin.Evaluates (Eval.interp n) (Eval.interp n) := by
  induction n with
  | zero => exact ⟨rfl, fun _ _ => .outOfFuel, fun _ _ _ => .outOfFuel⟩
  | succ n ih =>
    constructor
    · rfl
    · intro e e' σ he hs
      exact (hidden_core p names False).twin.evaluateStep ih he hs
    · intro v v' args σ hs hv hargs
      exact hidden_call hs hv hargs

section
variable {m : Eval Completion} (hs : s.Hides p) (hin : ∀ τ, (hidden p [] True).twin.inv τ →
  (hidden p [] True).twin.Keeps τ (hidden p [] True).twin.Ended m m)
include hs hin

/-- What runs in a block scope of its own leaves the members of the hidden object. -/
theorem hidden_inBlock :
    (hidden p names False).twin.Keeps ⟨s, s⟩ (hidden p names False).twin.Ended
      (Eval.inFrame (·.pushBlock) m) (Eval.inFrame (·.pushBlock) m) := by
  have henter := enters_pushBlock hs
  exact henter.inFrame (hin _ henter.inv) fun _ _ _ => hidden_ended

theorem hidden_inScope {own : Bool} (hout : own = false →
      (hidden p names False).twin.Keeps ⟨s, s⟩ (hidden p names False).twin.Ended m m) :
    (hidden p names False).twin.Keeps ⟨s, s⟩ (hidden p names False).twin.Ended
      (Eval.inScope own m) (Eval.inScope own m) := by
  cases own with
  | true => exact hidden_inBlock hs hin
  | false => exact hout rfl

end

theorem hidden_declare {v : Value} {name : String} (hname : name ∈ names) (readOnly : Bool)
    (hs : (hidden p names False).inv s) (hv : v.Avoids p) :
    (hidden p names False).twin.Step ⟨s, s⟩
      (Duo.map (fun s => (s.allocate s.currentScope name v readOnly).2) ⟨s, s⟩) :=
  (hidden_step hs (hs.1.allocate hv _ name readOnly) (rebinds_declare hname v readOnly)).twin

section
variable (h : ∀ statement : Stmt, statement.exposed ⊆ names →
  (hidden p names False).twin.Executes (Eval.interp n) (Eval.interp n) statement statement)
include h

/-- The items of a block without a scope of its own bind what the block exposes. -/
theorem hidden_items {items : List Item}
    (hitems : (if needsScope items then [] else Item.exposedAll items) ⊆ names)
    (hscope : needsScope items = false) : List.Forall₂
      (Item.Pairs ((hidden p names False).twin.Executes (Eval.interp n) (Eval.interp n)))
      items items := by
  refine Item.pairs_self fun item hitem => ?_
  rw [hscope] at hitems
  exact h _ (List.Subset.trans (Item.exposed_subset hitem) hitems)

/-- One step of a statement binds at most what it exposes, if the statements inside do so. -/
theorem hidden_executeStep {statement : Stmt} (hexposed : statement.exposed ⊆ names) {σ : Duo}
    (hσ : (hidden p names False).twin.inv σ) :
    (hidden p names False).twin.Keeps σ (hidden p names False).twin.Ended
      (Eval.executeStep (Eval.interp n) statement) (Eval.executeStep (Eval.interp n) statement) := by
  have L := (hidden_core p names False).twin
  have B := (outside_lawful p).twin
  have E := hidden_evaluates p names n
  have I := outside_interprets p n
  have hundefined := fun τ => Lockstep.Ended.normal (L.good_undefined τ)
  have hinside {items : List Item} :=
    I.executeAll (Item.pairs_self fun item (_ : item ∈ items) => ⟨rfl, trivial⟩)
  -- What runs in a frame of its own goes by `B` and `I`, all else by `L` and the hypothesis on the
  -- statements inside.
  cases statement with
  | expression span e =>
    apply L.bind (E.evaluate ⟨rfl, trivial⟩ hσ)
    intro v v' τ hτ _ hv
    exact L.pure hτ (.normal hv)
  | block span items =>
    rw [Stmt.exposed] at hexposed
    obtain ⟨s, rfl, hs⟩ := hσ
    apply hidden_inScope hs.1
    · exact fun τ hτ => B.runItems hinside hτ (B.good_undefined τ)
    · exact fun hscope => L.runItems (hidden_items h hexposed hscope) ⟨s, rfl, hs⟩
        (L.good_undefined _)
  | ifElse span condition thenBranch elseBranch =>
    rw [Stmt.exposed_ifElse, List.append_subset] at hexposed
    apply L.bind (E.evaluate ⟨rfl, trivial⟩ hσ)
    intro test test' τ hτ _ htest
    apply L.truths hτ htest
    intro b
    cases b with
    | true => exact h _ hexposed.1 τ hτ
    | false =>
      cases elseBranch with
      | some branch => exact h _ hexposed.2 τ hτ
      | none => exact L.pure hτ (hundefined τ)
  | whileLoop span condition body =>
    rw [Stmt.exposed] at hexposed
    exact L.repeatUntil (fun τ hτ => L.whileTurn E ⟨rfl, trivial⟩ (h _ hexposed) hτ) _ hσ
  | forLoop span init condition update body =>
    obtain ⟨s, rfl, hs⟩ := hσ
    apply hidden_inBlock hs.1
    intro τ hτ
    exact B.forLoop I.toEvaluates (Option.rel_self fun _ _ => I.execute ⟨rfl, trivial⟩)
      (Option.rel_self fun _ _ => ⟨rfl, trivial⟩) (Option.rel_self fun _ _ => ⟨rfl, trivial⟩)
      (I.execute ⟨rfl, trivial⟩) hτ
  | switch span subject items =>
    rw [Stmt.exposed] at hexposed
    apply L.bind (E.evaluate ⟨rfl, trivial⟩ hσ)
    intro v v' τ hτ _ hv
    apply L.derefs hτ hv
    intro d hd
    refine L.holding hτ (.value (L.good_of_stored hd)) ?_ fun _ _ _ _ => L.ended_mono
    rintro _ ⟨s, rfl, hs⟩ _
    apply hidden_inScope hs.1
    · exact fun υ hυ => B.runSwitch hinside hυ hd
    · exact fun hscope => L.runSwitch (hidden_items h hexposed hscope) ⟨s, rfl, hs⟩ hd
  | tryCatch span body binding handler =>
    rw [Stmt.exposed] at hexposed
    apply L.bind (h _ hexposed σ hσ).attempt
    intro r r' τ hτ _ hr
    cases hr with
    | ok hc => exact L.pure hτ hc
    | error he =>
      obtain ⟨s, rfl, hs⟩ := hτ
      apply hidden_inBlock hs.1
      exact fun υ hυ => B.bindThrown binding (I.execute ⟨rfl, trivial⟩) hυ he
  | throwValue span e =>
    apply L.bind (E.evaluate ⟨rfl, trivial⟩ hσ)
    intro v v' τ hτ _ hv
    exact L.throwValue hτ hv
  | returnValue span e =>
    apply L.next (L.optionalValue E (Option.rel_self fun _ _ => ⟨rfl, trivial⟩) hσ)
    intro v τ hτ _ hv
    exact L.pure hτ (.returned hv)
  | breakLoop span => exact L.pure hσ .broken
  | continueLoop span => exact L.pure hσ .continued
  | declare span kind name init =>
    apply L.next (L.optionalValue E (Option.rel_self fun _ _ => ⟨rfl, trivial⟩) hσ)
    rintro v _ ⟨s, rfl, hs⟩ _ hv
    have hname : name ∈ names := hexposed (by simp [Stmt.exposed])
    have hbind := hidden_declare hname (kind = .constDecl) hs hv
    apply L.update hbind
    exact L.pure hbind.inv (hundefined _)
  | function span definition =>
    apply L.next (L.newScript hσ (FunctionDef.pairs_self fun _ _ => ⟨rfl, trivial⟩) ⟨rfl, trivial⟩)
    rintro o _ ⟨s, rfl, hs⟩ _ ho
    cases hname : definition.name with
    | none => exact L.pure ⟨s, rfl, hs⟩ (hundefined _)
    | some name =>
      have hmem : name ∈ names := hexposed (by simp [Stmt.exposed, hname])
      have hbind := hidden_declare (v := .object o) hmem false hs ho
      apply L.update hbind
      exact L.pure hbind.inv (hundefined _)
  | error span errors => exact L.fail _ hσ

end

/-- Executing a statement binds at most what it exposes in the current scope. -/
theorem hidden_executes (p : ObjectId) (names : List String) (n : Nat) :
    ∀ statement : Stmt, statement.exposed ⊆ names →
      (hidden p names False).twin.Executes (Eval.interp n) (Eval.interp n) statement statement := by
  induction n with
  | zero => exact fun _ _ _ _ => .outOfFuel
  | succ n ih => exact fun _ hexposed _ hσ => hidden_executeStep ih hexposed hσ

end Discipline

namespace State

variable {s s' : State}

/-- A statement binds at most what it exposes in a scope that nothing leads to. -/
theorem Hides.execute {p : ObjectId} (hs : s.Hides p) {n : Nat} {statement : Stmt}
    (h : (Eval.execute n statement s).EndsIn s') : s.Rebinds statement.exposed p s' := by
  have hkeeps := Discipline.hidden_executes p statement.exposed n statement (List.Subset.refl _)
    ⟨s, s⟩ ⟨s, rfl, hs, nofun⟩
  exact (Discipline.Keeps.of_twin hkeeps fun _ _ => Discipline.ended_of_twin).leads h

/-- In a sealed state nothing leads to a scope. -/
theorem Sealed.hides (hs : s.Sealed) {p : ObjectId} (hp : s.IsScope p) : s.Hides p := by
  have hpublic : ∀ o, s.Public o → o ≠ p := by
    rintro o ho rfl
    exact ho.2 hp
  have hholds : ∀ v, s.Holds v → v.Avoids p := by
    intro v hv
    cases v with
    | object o => exact hpublic o hv
    | reference r => exact hv.elim
    | _ => trivial
  constructor
  · exact hp.lt_size
  · exact hpublic _ hs.global
  · exact hpublic _ hs.globalThis
  · exact fun frame h => hpublic _ (hs.this frame h)
  · exact fun i => hholds _ (hs.slots i)
  · exact fun c name f hf => hpublic f (hs.methods c name f hf)
  · exact fun o f v hf hcallback => absurd hcallback (hs.natives o f _ hf)

theorem isScope_pushBlock (s : State) : s.pushBlock.IsScope s.pushBlock.currentScope := by
  change ((s.addObject { payload := .scope (some s.currentScope) }).2.object
    ⟨s.objects.size⟩).payload.isScope = true
  rw [object_addObject, if_pos rfl]
  rfl

end State

open State

/-- What a block executes binds at most the names that the block exposes in the scope around it. While
scripts run, nothing leads to a local scope that is the current one. Where nothing leads to the current
scope, a block ends, however it ends, in the same scope; there names are bound again only if the block
exposes them, all other names stand for the slots that they stood for, and a block that exposes nothing
leaves the members as they were. -/
theorem blocks_bind_exposed (n : Nat) (span : Span) (items : List Item) (s : State) :
    (Requested n (.execute (.block span items)) s → s.IsScope s.currentScope →
      s.Hides s.currentScope) ∧
    ∀ s' : State, s.Hides s.currentScope → (Eval.execute n (.block span items) s).EndsIn s' →
      s'.currentScope = s.currentScope ∧
      Table.Rebound (Stmt.block span items).exposed (s.object s.currentScope).members
        (s'.object s.currentScope).members ∧
      (∀ name ∉ (Stmt.block span items).exposed,
        s'.own? s.currentScope name = s.own? s.currentScope name) ∧
      ((Stmt.block span items).exposed = [] →
        (s'.object s.currentScope).members = (s.object s.currentScope).members) := by
  constructor
  · intro hrequested hscope
    have hs := Discipline.sealed_lawful.requested Discipline.sealed_hosts sealed_install
      (fun _ => trivial) hrequested
    exact hs.1.hides hscope
  · intro s' hs hend
    have h := hs.execute hend
    refine ⟨currentScope_congr h.frames h.global, h.members, ?_, ?_⟩
    · intro name hname
      exact h.members.find?_eq hname
    · intro hnone
      rw [hnone] at h
      exact h.members.eq_self

/-! Blocks directly inside of a block that has a scope of its own. -/

theorem Request.asks_firstItem {i : Interp} {s : State} {span : Span} {item : Item}
    {rest : List Item} (hs : s.mortal = []) (hscope : needsScope (item :: rest) = true) :
    (Request.execute (.block span (item :: rest))).Asks i s (.execute item.statement)
      s.pushBlock := by
  apply Eval.asks_of_stopAt (m := (Eval.executeStep · (.block span (item :: rest))))
  intro path
  have hfirst : Eval.runItems (i.stopAt s.pushBlock path (.execute item.statement)) .undefined
      (item :: rest) s.pushBlock = .stopped path := by
    rw [Eval.runItems]
    have himmortal : s.pushBlock.mortal = [] := hs
    exact Eval.bind_stopped (Eval.holding_stopped himmortal _ (Interp.execute_stopAt _))
  change Eval.inScope (needsScope (item :: rest)) _ s = _
  rw [Eval.inScope, if_pos hscope, Eval.inFrame, hfirst]
  cases path <;> rfl

/-- The block with which a block starts that a source text starts with, if that has its own scope. -/
def nestedBlock? (source : String) : Option (Span × List Item) :=
  match parseProgram source with
  | .error _ => none
  | .ok program =>
    match program.isError, program.statements with
    | false, .block _ (.mk label (.block span items) :: rest) :: _ =>
      if needsScope (.mk label (.block span items) :: rest) then some (span, items) else none
    | _, _ => none

theorem requested_of_nestedBlock? {source : String} {span : Span} {items : List Item} {s : State}
    (hs : s.BetweenRuns) (h : nestedBlock? source = some (span, items)) (n : Nat) :
    Requested n (.execute (.block span items)) s.pushBlock := by
  have hsealed : s.Sealed :=
    Discipline.sealed_lawful.betweenRuns Discipline.sealed_hosts sealed_install (fun _ => trivial) hs
  unfold nestedBlock? at h
  split at h
  · cases h
  · rename_i program hparse
    split at h
    · rename_i herror hstatements
      split at h
      · rename_i hscope
        cases h
        have houter := Requested.program (n := n + 1) source .script hs
          (Eval.asks_first hsealed.immortal hparse herror hstatements .script)
        exact houter.inside (Request.asks_firstItem hsealed.immortal hscope)
      · cases h
    · cases h

/-- The block around the others of a source text, once it is entered. -/
def State.braced : State :=
  (State.initial default).pushBlock

theorem exists_nested (source : String) (p : List Item → State → Bool)
    (h : (nestedBlock? source).any (fun b =>
      (Eval.execute 60 (.block b.1 b.2) braced).state?.any (p b.2)) = true) :
    ∃ span items s', Requested 60 (.execute (.block span items)) braced ∧
      (Eval.execute 60 (.block span items) braced).EndsIn s' ∧ p items s' = true := by
  cases hblock : nestedBlock? source with
  | none =>
    rw [hblock] at h
    cases h
  | some b =>
    rw [hblock] at h
    obtain ⟨s', hend, hp⟩ := Outcome.exists_endsIn h
    exact ⟨b.1, b.2, s', requested_of_nestedBlock? (.new none none default) hblock 60, hend, hp⟩

def enclosingScript : String :=
  "\x7b \x7b if (true) \x7b let x = 2; \x7d try \x7b const x = 3; throw x; \x7d " ++
    "catch (x) \x7b \x7d \x7d let x = 1; \x7d"

/-- Declarations in the braces of an `if` and of a `try` inside of a block are not exposed. -/
theorem blocks_bind_exposed_inBraces :
    ∃ span items s', Requested 60 (.execute (.block span items)) braced ∧
      braced.IsScope braced.currentScope ∧ needsScope items = false ∧
      (Eval.execute 60 (.block span items) braced).EndsIn s' ∧
      (s'.object braced.currentScope).members = (braced.object braced.currentScope).members := by
  obtain ⟨span, items, s', hrequested, hend, hitems⟩ := exists_nested enclosingScript
    (fun items _ => !needsScope items && (Item.exposedAll items).isEmpty) (by decide +kernel)
  simp only [Bool.and_eq_true, Bool.not_eq_true', List.isEmpty_iff] at hitems
  obtain ⟨hshared, hnone⟩ := hitems
  have hscope : braced.IsScope braced.currentScope := isScope_pushBlock (State.initial default)
  obtain ⟨hhidden, hbinds⟩ := blocks_bind_exposed 60 span items braced
  have hexposed : (Stmt.block span items).exposed = [] := by
    rw [Stmt.exposed, hshared, hnone]
    rfl
  have hkept := hbinds s' (hhidden hrequested hscope) hend
  exact ⟨span, items, s', hrequested, hscope, hshared, hend, hkept.2.2.2 hexposed⟩

def exposingScript : String :=
  "\x7b \x7b if (true) let x = 2; \x7d let x = 1; \x7d"

/-- A declaration without braces of its own binds its name in the scope around the block. -/
theorem block_binds_outside :
    ∃ span items s', Requested 60 (.execute (.block span items)) braced ∧
      braced.IsScope braced.currentScope ∧
      (Eval.execute 60 (.block span items) braced).EndsIn s' ∧
      braced.own? braced.currentScope "x" = none ∧
      (s'.own? braced.currentScope "x").isSome = true := by
  obtain ⟨span, items, s', hrequested, hend, hbound⟩ := exists_nested exposingScript
    (fun _ s' => (braced.own? braced.currentScope "x").isNone &&
      (s'.own? braced.currentScope "x").isSome) (by decide +kernel)
  simp only [Bool.and_eq_true, Option.isNone_iff_eq_none] at hbound
  have hscope : braced.IsScope braced.currentScope := isScope_pushBlock (State.initial default)
  exact ⟨span, items, s', hrequested, hscope, hend, hbound⟩

end Scripting
