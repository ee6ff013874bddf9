import Scripting.Proofs.Enclosure.Jump
import Scripting.Proofs.Quiet

/-!
How statements end. A statement ends with a jump only if such a jump is open in it; a loop ends without
a value or with a `return`, and a `switch` does not end with a `break`.
-/

namespace Scripting

/-- The jump with which a statement ended. -/
def Completion.jump? : Completion → Option Jump
  | .normal _ => none
  | .broken => some .breakLoop
  | .continued => some .continueLoop
  | .returned _ => some .returnValue

/-- If a statement ended with a jump, it is one of those that `admits` holds of. -/
def Completion.Within (admits : Jump → Bool) (c : Completion) : Prop :=
  ∀ jump, c.jump? = some jump → admits jump = true

theorem Completion.within_normal (admits : Jump → Bool) (v : Value) :
    (Completion.normal v).Within admits :=
  nofun

theorem Completion.Within.mono {admits admits' : Jump → Bool} {c : Completion} (h : c.Within admits)
    (hle : ∀ jump, admits jump = true → admits' jump = true) : c.Within admits' :=
  fun jump hjump => hle jump (h jump hjump)

namespace Eval

variable {α β : Type}

/-- Every value that the computation gives satisfies `P`. -/
structure Gives (m : Eval α) (P : α → Prop) : Prop where
  of_ok : ∀ {s a s'}, m s = .ok a s' → P a

section
variable {P : α → Prop} {Q : β → Prop} {m : Eval α}

theorem gives_pure {a : α} (h : P a) : Gives (pure a) P := by
  constructor
  rintro s b s' ⟨⟩
  exact h

theorem gives_fail (fault : Fault) : Gives (fail fault) P :=
  ⟨nofun⟩

theorem gives_throwValue (v : Value) : Gives (throwValue v) P :=
  ⟨nofun⟩

/-- A sequence gives what its last part gives. -/
theorem Gives.bind {f : α → Eval β} (hm : Gives m P) (hf : ∀ a, P a → Gives (f a) Q) :
    Gives (m >>= f) Q := by
  constructor
  intro s b s' h
  obtain ⟨a, s₁, hrun, h⟩ := exists_of_bind_ok h
  exact (hf a (hm.of_ok hrun)).of_ok h

/-- A sequence whose first part may give anything. -/
theorem gives_bind {f : α → Eval β} (hf : ∀ a, Gives (f a) Q) : Gives (m >>= f) Q :=
  Gives.bind (P := fun _ => True) ⟨fun _ => trivial⟩ fun a _ => hf a

theorem Gives.mono {P' : α → Prop} (hm : Gives m P) (h : ∀ a, P a → P' a) : Gives m P' :=
  ⟨fun hrun => h _ (hm.of_ok hrun)⟩

theorem Gives.holding (hm : Gives m P) (nodes : List Node) : Gives (holding nodes m) P := by
  constructor
  intro s a s' h
  unfold Eval.holding at h
  split at h
  · exact hm.of_ok h
  · dsimp only at h
    split at h
    · rename_i a' s₁ hrun
      cases h
      exact hm.of_ok hrun
    · cases h
    · cases h
    · cases h

theorem Gives.inFrame (hm : Gives m P) (push : State → State) : Gives (inFrame push m) P := by
  constructor
  intro s a s' h
  unfold Eval.inFrame at h
  split at h
  · rename_i a' s₁ hrun
    cases h
    exact hm.of_ok hrun
  · cases h
  · cases h
  · cases h

theorem Gives.inScope (hm : Gives m P) (own : Bool) : Gives (inScope own m) P := by
  unfold Eval.inScope
  split
  · exact hm.inFrame _
  · exact hm

theorem Gives.attempt (hm : Gives m P) : Gives (attempt m) fun r => ∀ a, r = .ok a → P a := by
  constructor
  intro s r s' h
  unfold Eval.attempt at h
  split at h
  · rename_i a s₁ hrun
    cases h
    rintro _ ⟨⟩
    exact hm.of_ok hrun
  · cases h
    exact nofun
  · cases h
  · cases h

theorem Gives.repeatUntil {m : Eval (Option α)} (hm : Gives m fun r => ∀ a, r = some a → P a)
    (n : Nat) : Gives (repeatUntil m n) P := by
  induction n with
  | zero => exact ⟨nofun⟩
  | succ n ih =>
    unfold Eval.repeatUntil
    apply hm.bind
    intro r hr
    cases r with
    | some a => exact gives_pure (hr a rfl)
    | none => exact ih

end

/-! One statement, from what the statements inside of it end with. -/

/-- What a statement may end with. -/
def EndsWithin (admits : Jump → Bool) (m : Eval Completion) : Prop :=
  Gives m (·.Within admits)

theorem EndsWithin.mono {admits admits' : Jump → Bool} {m : Eval Completion}
    (hm : EndsWithin admits m) (hle : ∀ jump, admits jump = true → admits' jump = true) :
    EndsWithin admits' m :=
  ⟨fun hrun jump hjump => hle jump (hm.of_ok hrun jump hjump)⟩

/-- Every statement ends only with jumps that are open in it. -/
def KeepsJumps (i : Interp) : Prop :=
  ∀ statement, EndsWithin statement.hasOpen (i.execute statement)

/-- How a loop ends: without a value, or with a `return` in its body. -/
inductive LoopEnd (body : Stmt) : Completion → Prop where
  | normal : LoopEnd body (.normal .undefined)
  | returned (v : Value) (h : body.hasOpen .returnValue = true) : LoopEnd body (.returned v)

theorem LoopEnd.normal_or_returned {body : Stmt} {c : Completion} (h : LoopEnd body c) :
    c = .normal .undefined ∨ ∃ v, c = .returned v := by
  cases h with
  | normal => exact .inl rfl
  | returned v _ => exact .inr ⟨v, rfl⟩

theorem LoopEnd.within {body : Stmt} {c : Completion} (h : LoopEnd body c) :
    c.Within fun jump => jump = .returnValue && body.hasOpen jump := by
  rintro jump hjump
  cases h with
  | normal => cases hjump
  | returned v h =>
    cases hjump
    simpa using h

theorem loopEnd_afterBody {body : Stmt} {c c' : Completion} (h : c.Within body.hasOpen)
    (hafter : afterBody c = some c') : LoopEnd body c' := by
  cases c with
  | normal v => cases hafter
  | continued => cases hafter
  | broken =>
    cases hafter
    exact .normal
  | returned v =>
    cases hafter
    exact .returned v (h _ rfl)

section
variable {i : Interp} (hi : KeepsJumps i)
include hi

theorem endsWithin_runItems (last : Value) (items : List Item) :
    EndsWithin (Item.anyOpen · items) (runItems i last items) := by
  induction items generalizing last with
  | nil => exact gives_pure (Completion.within_normal _ _)
  | cons item rest ih =>
    obtain ⟨label, statement⟩ := item
    apply ((hi statement).holding last.nodes).bind
    intro c hc
    have hhead : c.Within (Item.anyOpen · (.mk label statement :: rest)) := by
      apply hc.mono
      intro jump hjump
      simp [Item.anyOpen, hjump]
    cases c with
    | normal v =>
      apply (ih v).mono
      intro jump hjump
      simp [Item.anyOpen, hjump]
    | returned v => exact gives_pure hhead
    | broken => exact gives_pure hhead
    | continued => exact gives_pure hhead

theorem gives_whileTurn (condition : Expr) (body : Stmt) :
    Gives (whileTurn i condition body) fun r => ∀ c, r = some c → LoopEnd body c := by
  unfold whileTurn
  refine gives_bind fun test => gives_bind fun holds => ?_
  split
  · apply (hi body).bind
    intro c hc
    exact gives_pure fun c' hafter => loopEnd_afterBody hc hafter
  · apply gives_pure
    rintro _ ⟨⟩
    exact .normal

theorem gives_forTurn (condition update : Option Expr) (body : Stmt) :
    Gives (forTurn i condition update body) fun r => ∀ c, r = some c → LoopEnd body c := by
  unfold forTurn
  refine gives_bind fun holds => ?_
  split
  · apply (hi body).bind
    intro c hc
    cases hafter : afterBody c with
    | some c' =>
      apply gives_pure
      rintro _ ⟨⟩
      exact loopEnd_afterBody hc hafter
    | none =>
      refine gives_bind fun _ => gives_pure ?_
      exact nofun
  · apply gives_pure
    rintro _ ⟨⟩
    exact .normal

/-- A loop ends normally, without a value, or with a `return`. -/
theorem gives_whileLoop (span : Span) (condition : Expr) (body : Stmt) :
    Gives (executeStep i (.whileLoop span condition body)) (LoopEnd body) :=
  (gives_whileTurn hi condition body).repeatUntil _

theorem gives_forLoop (span : Span) (init : Option Stmt) (condition update : Option Expr)
    (body : Stmt) :
    Gives (executeStep i (.forLoop span init condition update body)) (LoopEnd body) := by
  apply Gives.inFrame
  exact gives_bind fun _ => (gives_forTurn hi condition update body).repeatUntil _

omit hi in
/-- A section is taken from the items of the `switch`. -/
theorem gives_selectSection (subject : Value) (fallback : Option (List Item)) (items : List Item) :
    Gives (selectSection subject fallback items) fun r =>
      ∀ taken, r = some taken → fallback = some taken ∨ taken ⊆ items := by
  induction items generalizing fallback with
  | nil => exact gives_pure fun taken htaken => .inl htaken
  | cons item rest ih =>
    have hrest : ∀ fallback', (∀ taken, fallback' = some taken →
        fallback = some taken ∨ taken ⊆ item :: rest) →
        Gives (selectSection subject fallback' rest) fun r =>
          ∀ taken, r = some taken → fallback = some taken ∨ taken ⊆ item :: rest := by
      intro fallback' hfallback
      apply (ih fallback').mono
      intro r hr taken htaken
      rcases hr taken htaken with h | h
      · exact hfallback taken h
      · exact .inr (List.subset_cons_of_subset item h)
    unfold selectSection
    split
    · refine gives_bind fun order => ?_
      split
      · apply gives_pure
        rintro _ ⟨⟩
        exact .inr (List.Subset.refl _)
      · exact hrest fallback fun taken h => .inl h
    · apply hrest
      intro taken h
      cases fallback with
      | some first => exact .inl h
      | none =>
        cases h
        exact .inr (List.Subset.refl _)
    · exact hrest fallback fun taken h => .inl h

/-- The items of a section end with no `break`. -/
theorem endsWithin_runSection (last : Value) (items : List Item) :
    EndsWithin (fun jump => jump ≠ .breakLoop && Item.anyOpen jump items)
      (runSection i last items) := by
  induction items generalizing last with
  | nil => exact gives_pure (Completion.within_normal _ _)
  | cons item rest ih =>
    obtain ⟨label, statement⟩ := item
    apply ((hi statement).holding last.nodes).bind
    intro c hc
    cases c with
    | normal v =>
      apply (ih v).mono
      intro jump hjump
      simp only [Bool.and_eq_true] at hjump ⊢
      simp [Item.anyOpen, hjump.1, hjump.2]
    | broken => exact gives_pure (Completion.within_normal _ _)
    | returned v =>
      apply gives_pure
      rintro _ ⟨⟩
      simp [Item.anyOpen, hc .returnValue rfl]
    | continued =>
      apply gives_pure
      rintro _ ⟨⟩
      simp [Item.anyOpen, hc .continueLoop rfl]

theorem endsWithin_runSwitch (subject : Value) (items : List Item) :
    EndsWithin (fun jump => jump ≠ .breakLoop && Item.anyOpen jump items)
      (runSwitch i subject items) := by
  apply (gives_selectSection subject none items).bind
  intro r hr
  match r with
  | none => exact gives_pure (Completion.within_normal _ _)
  | some [] => exact gives_pure (Completion.within_normal _ _)
  | some (item :: rest) =>
    have hsubset : item :: rest.takeWhile (·.label.isNone) ⊆ items := by
      rcases hr _ rfl with h | h
      · cases h
      · exact List.Subset.trans (List.cons_subset_cons item (List.takeWhile_subset _)) h
    apply (endsWithin_runSection hi .undefined _).mono
    intro jump hjump
    rw [Bool.and_eq_true] at hjump ⊢
    obtain ⟨item', hitem', hopen⟩ := Item.anyOpen_iff.1 hjump.2
    exact ⟨hjump.1, Item.anyOpen_iff.2 ⟨item', hsubset hitem', hopen⟩⟩

/-- A statement takes the jumps inside of it that are not open in it. -/
theorem endsWithin_executeStep (statement : Stmt) :
    EndsWithin statement.hasOpen (executeStep i statement) := by
  have hnormal := fun v => Completion.within_normal statement.hasOpen v
  cases statement with
  | expression span e => exact gives_bind fun v => gives_pure (hnormal v)
  | block span items =>
    simp only [executeStep, runBlock]
    exact (endsWithin_runItems hi .undefined items).inScope _
  | ifElse span condition thenBranch elseBranch =>
    refine gives_bind fun test => gives_bind fun holds => ?_
    split
    · apply (hi thenBranch).mono
      intro jump hjump
      rw [Stmt.hasOpen_ifElse, hjump, Bool.true_or]
    · cases elseBranch with
      | none => exact gives_pure (hnormal _)
      | some branch =>
        apply (hi branch).mono
        intro jump hjump
        rw [Stmt.hasOpen_ifElse, Option.any_some, hjump, Bool.or_true]
  | whileLoop span condition body =>
    apply (gives_whileLoop hi span condition body).mono
    intro c hc
    exact hc.within
  | forLoop span init condition update body =>
    -- a jump in the first clause is open in the loop, but the loop goes on after it
    apply (gives_forLoop hi span init condition update body).mono
    intro c hc
    apply hc.within.mono
    intro jump hjump
    rw [Stmt.hasOpen_forLoop, hjump, Bool.or_true]
  | switch span subject items =>
    refine gives_bind fun v => gives_bind fun d => ?_
    exact ((endsWithin_runSwitch hi d items).inScope _).holding _
  | tryCatch span body binding handler =>
    apply (hi body).attempt.bind
    intro r hr
    cases r with
    | ok c =>
      apply gives_pure
      apply (hr c rfl).mono
      intro jump hjump
      simp [Stmt.hasOpen, hjump]
    | error e =>
      apply Gives.inFrame
      refine gives_bind fun _ => ?_
      apply (hi handler).mono
      intro jump hjump
      simp [Stmt.hasOpen, hjump]
  | throwValue span e => exact gives_bind fun v => gives_throwValue v
  | returnValue span e =>
    refine gives_bind fun v => gives_pure ?_
    rintro _ ⟨⟩
    simp [Stmt.hasOpen]
  | breakLoop span =>
    apply gives_pure
    rintro _ ⟨⟩
    simp [Stmt.hasOpen]
  | continueLoop span =>
    apply gives_pure
    rintro _ ⟨⟩
    simp [Stmt.hasOpen]
  | declare span kind name init =>
    exact gives_bind fun v => gives_bind fun _ => gives_pure (hnormal _)
  | function span definition =>
    refine gives_bind fun o => ?_
    split
    · exact gives_bind fun _ => gives_pure (hnormal _)
    · exact gives_pure (hnormal _)
  | error span errors => exact gives_fail _

end

/-- Within every bound, statements end only with jumps that are open in them. -/
theorem keepsJumps (n : Nat) : KeepsJumps (interp n) := by
  induction n with
  | zero => exact fun _ => ⟨nofun⟩
  | succ n ih => exact endsWithin_executeStep ih

theorem gives_execute_whileLoop (n : Nat) (span : Span) (condition : Expr) (body : Stmt) :
    Gives (execute n (.whileLoop span condition body)) (LoopEnd body) := by
  cases n with
  | zero => exact ⟨nofun⟩
  | succ n => exact gives_whileLoop (keepsJumps n) span condition body

theorem gives_execute_forLoop (n : Nat) (span : Span) (init : Option Stmt)
    (condition update : Option Expr) (body : Stmt) :
    Gives (execute n (.forLoop span init condition update body)) (LoopEnd body) := by
  cases n with
  | zero => exact ⟨nofun⟩
  | succ n => exact gives_forLoop (keepsJumps n) span init condition update body

end Eval

end Scripting
