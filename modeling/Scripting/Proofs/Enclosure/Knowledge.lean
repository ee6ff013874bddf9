import Scripting.Proofs.Enclosure.Watch
import Scripting.Proofs.Lockstep.Likeness

/-!
A run depends on the files that it asks for, and on no others.

Two runs that know different answers for files go the same way, until one of them asks for a file that
only the other one knows.
-/

namespace Scripting

/-- The same state, with other answers for files. -/
def State.knowing (s : State) (files : Files) : State :=
  { s with files := files }

/-- All that one table of files knows is known to another one. -/
def Files.KnownTo (known files : Files) : Prop :=
  ∀ path, known.read path = files.read path ∨ known.read path = none

/-- The same end, with other answers for files. -/
def Outcome.knowing {α : Type} (files : Files) : Outcome α → Outcome α
  | .ok a s => .ok a (s.knowing files)
  | .thrown e s => .thrown e (s.knowing files)
  | .outOfFuel => .outOfFuel
  | .needsFile path => .needsFile path

namespace Likeness

variable (known files : Files)

/-- Two runs that differ in nothing but the files they know. -/
def knowing : Likeness where
  expr := Eq
  stmt := Eq
  code := Eq
  files left right := left = known ∧ right = files
  lacks path := known.read path = none ∧ files.read path ≠ none

variable {known files} {s t : State}

theorem resembles_knowing (s : State) :
    (s.knowing known).Resembles Eq (knowing known files).files (s.knowing files) :=
  ⟨rfl, rfl, fun _ => ⟨rfl, rfl, Payload.pairs_self fun _ _ => rfl⟩, rfl, rfl⟩

theorem eq_of_resembles {x y : Object} (h : x.Resembles Eq y) : x = y := by
  obtain ⟨classId, members, payload⟩ := x
  obtain ⟨classId', members', payload'⟩ := y
  obtain ⟨rfl, rfl, hpayload⟩ := h
  dsimp only at hpayload
  cases hpayload with
  | other => rfl
  | function h =>
    cases h with
    | native f => rfl
    | script h => rw [h]

theorem eq_knowing (h : s.Resembles Eq (knowing known files).files t) : t = s.knowing files :=
  State.eq_of_remainder h.remainder.symm h.size.symm (fun o => (eq_of_resembles (h.object o)).symm)
    h.files.2

theorem knowing_lawful (hknown : known.KnownTo files) : (knowing known files).Lawful where
  expr_pairs {e _} he := by
    obtain rfl := he
    exact Expr.Parts.pairs (by cases e <;> simp [Expr.Parts, knowing])
  stmt_pairs {statement _} h := by
    obtain rfl := h
    exact Stmt.Parts.pairs (by cases statement <;> simp [Stmt.Parts, knowing])
  expr_code he := by cases he; rfl
  stmt_code h := by cases h; rfl
  code_pairs h := by
    obtain rfl := h
    exact FunctionDef.pairs_self fun _ _ => rfl
  stmt_refl _ := rfl
  code_refl _ := rfl
  read := by
    rintro _ answers path ⟨rfl, rfl⟩
    rcases hknown path with hsame | hnone
    · exact .inl hsame
    · cases hread : answers.read path with
      | none => exact .inl hnone
      | some answer => exact .inr ⟨hnone, hnone, by rw [hread]; exact Option.some_ne_none _⟩

theorem ended_knowing {c c' : Completion} (h : (knowing known files).lockstep.Ended σ c c') :
    c = c' := by
  cases h with
  | normal hv => exact congrArg Completion.normal hv
  | returned _ => rfl
  | broken => rfl
  | continued => rfl

theorem knowing_ended (c : Completion) : (knowing known files).lockstep.Ended σ c c := by
  cases c with
  | normal v => exact .normal rfl
  | returned v => exact .returned trivial
  | broken => exact .broken
  | continued => exact .continued

/-- The watch looks at no files. -/
theorem knowing_attach (hknown : known.KnownTo files) (watch : Watch) (takes : Completion → Bool)
    {i i' : Interp} (I : (knowing known files).lockstep.Interprets i i') :
    (knowing known files).lockstep.Interprets (watch.attach takes i) (watch.attach takes i') where
  fuel := I.fuel
  evaluate := I.evaluate
  call := I.call
  execute := by
    intro statement statement' hstatement σ hs
    have L := (knowing_lawful hknown).lockstep
    apply L.bind (I.execute hstatement σ hs)
    intro c _ τ hτ _ hc
    obtain rfl := ended_knowing hc
    split
    · exact L.pure hτ (knowing_ended c)
    · cases watch.act c with
      | ok c => exact L.pure hτ (knowing_ended c)
      | error e => exact L.rethrow hτ trivial

theorem knowing_interprets (hknown : known.KnownTo files) (watch : Watch) (n : Nat) :
    (knowing known files).lockstep.Interprets (watch.interp n) (watch.interp n) := by
  have L := (knowing_lawful hknown).lockstep
  induction n with
  | zero => exact ⟨⟨rfl, fun _ _ => .outOfFuel, fun _ _ _ => .outOfFuel⟩, fun _ _ _ => .outOfFuel⟩
  | succ n ih =>
    refine ⟨⟨rfl, fun he hs => L.evaluateStep ih.toEvaluates he hs, ?_⟩,
      fun h _ hs => L.executeStep ih h hs⟩
    intro v v' args σ hs hv hargs
    have hcall := L.callStep (knowing_attach hknown watch (Watch.takenBy σ.left v) ih)
      (knowing_lawful hknown).hosts hs hv hargs
    obtain rfl : v = v' := hv
    -- both runs see the same callee, so their statements may end in the same ways
    have htaken : Watch.takenBy σ.right v = Watch.takenBy σ.left v := by
      rw [Watch.takenBy, Watch.takenBy, ← hs.deref, eq_knowing hs]
      rfl
    change (knowing known files).lockstep.Ends σ _
      (Eval.callStep (watch.attach (Watch.takenBy σ.left v) (watch.interp n)) v args σ.left)
      (Eval.callStep (watch.attach (Watch.takenBy σ.right v) (watch.interp n)) v args σ.right)
    rw [htaken]
    exact hcall

end Likeness

/-- A run that knows more files goes the same way, unless the one that knows less stops at a file that
it lacks. -/
theorem Watch.run_knowing (watch : Watch) {known files : Files} (hknown : known.KnownTo files)
    (n : Nat) (source : String) (mode : RunMode) (s : State) :
    (∃ path, watch.run n source mode (s.knowing known) = .needsFile path ∧
      known.read path = none ∧ files.read path ≠ none) ∨
    watch.run n source mode (s.knowing files) =
      (watch.run n source mode (s.knowing known)).knowing files := by
  have L := (Likeness.knowing_lawful hknown).lockstep
  have I := Likeness.knowing_attach hknown watch Completion.endsText
    (Likeness.knowing_interprets hknown watch n)
  have hend := L.runCode I source mode (σ := ⟨s.knowing known, s.knowing files⟩)
    (Likeness.resembles_knowing s) trivial
  change (Likeness.knowing known files).lockstep.Ends _ _ (watch.run n source mode (s.knowing known))
    (watch.run n source mode (s.knowing files)) at hend
  generalize watch.run n source mode (s.knowing known) = x at hend ⊢
  generalize watch.run n source mode (s.knowing files) = y at hend ⊢
  cases hend with
  | @ok a b t t' hinv _ hresult =>
    obtain rfl : t' = t.knowing files := Likeness.eq_knowing hinv
    obtain rfl := hresult.1
    exact .inr rfl
  | @thrown e t t' hinv _ _ =>
    obtain rfl : t' = t.knowing files := Likeness.eq_knowing hinv
    exact .inr rfl
  | outOfFuel => exact .inr rfl
  | needsFile path => exact .inr rfl
  | lacking h => exact .inl ⟨_, rfl, h⟩

end Scripting
