import Scripting.Proofs.Discipline.Run
import Scripting.Proofs.Initial

/-!
Ranked states: a slot that stores a reference refers to an older slot.

In a ranked state every chain of references ends, so a value can be followed without a bound. No
operation of the interpreter breaks the ranking, because what it stores is followed before.
-/

namespace Scripting

namespace State

/-- A slot that stores a reference refers to a slot that was created earlier. -/
def Ranked (s : State) : Prop :=
  ∀ i r, (s.slot i).value = .reference r → r.slot.index < i.index

/-- A value that refers to an existing slot, if it refers to any. -/
def Knows (s : State) (v : Value) : Prop :=
  ∀ r, v = .reference r → r.slot.index < s.slots.size

/-- Following references from a value ends with another one. There is no bound on their number. -/
inductive Follows (s : State) : Value → Value → Prop where
  | done {v : Value} (h : v.isReference = false) : Follows s v v
  | next {r : Reference} {w : Value} (h : Follows s (s.read r) w) : Follows s (.reference r) w

variable {s : State}

theorem Follows.isReference_eq_false {v w : Value} (h : s.Follows v w) : w.isReference = false := by
  induction h with
  | done h => exact h
  | next _ ih => exact ih

theorem Follows.unique {v w w' : Value} (h : s.Follows v w) (h' : s.Follows v w') : w = w' := by
  induction h with
  | done hv =>
    cases h' with
    | done => rfl
    | next => cases hv
  | next _ ih =>
    cases h' with
    | done hv => cases hv
    | next h' => exact ih h'

/-! Chains of references in a ranked state. -/

/-- The index of the first slot bounds the length of a chain. -/
theorem Ranked.follows_followUpTo (hs : s.Ranked) {n : Nat} {v : Value}
    (h : ∀ r, v = .reference r → r.slot.index < n) : s.Follows v (s.followUpTo n v) := by
  induction n generalizing v with
  | zero =>
    cases v with
    | reference r => exact absurd (h r rfl) (Nat.not_lt_zero _)
    | _ => exact .done rfl
  | succ n ih =>
    cases v with
    | reference r =>
      refine .next (ih ?_)
      intro r' h'
      have hlt : r'.slot.index < r.slot.index := hs r.slot r' h'
      have := h r rfl
      omega
    | _ => exact .done rfl

theorem Ranked.follows_deref (hs : s.Ranked) (v : Value) : s.Follows v (s.deref v) := by
  cases v with
  | reference r =>
    refine .next (hs.follows_followUpTo ?_)
    intro r' h
    have hlt : r'.slot.index < r.slot.index := hs r.slot r' h
    by_cases hsize : r.slot.index < s.slots.size
    · omega
    · -- a slot that does not exist reads as one that stores no reference
      rw [read, slot_of_size_le s (Nat.not_lt.1 hsize)] at h
      cases h
  | _ => exact .done rfl

theorem Ranked.isReference_deref (hs : s.Ranked) (v : Value) : (s.deref v).isReference = false :=
  (hs.follows_deref v).isReference_eq_false

theorem Ranked.deref_reference (hs : s.Ranked) (r : Reference) :
    s.deref (.reference r) = s.deref (s.read r) :=
  (hs.follows_deref _).unique (.next (hs.follows_deref (s.read r)))

/-! The conversions of a reference are those of the value in its slot. -/

theorem Ranked.truth_reference (hs : s.Ranked) (r : Reference) :
    s.truth (.reference r) = s.truth (s.read r) := by
  simp only [truth, hs.deref_reference r]

theorem Ranked.toInt_reference (hs : s.Ranked) (r : Reference) :
    Eval.toInt (.reference r) s = Eval.toInt (s.read r) s := by
  simp only [Eval.toInt, Eval.deref, Eval.look, bind, Eval.andThen, hs.deref_reference r]

theorem Ranked.toObject_reference (hs : s.Ranked) (r : Reference) :
    Eval.toObject (.reference r) s = Eval.toObject (s.read r) s := by
  simp only [Eval.toObject, Eval.deref, Eval.look, bind, Eval.andThen, hs.deref_reference r]

/-! Changes of the slots. -/

theorem Ranked.of_slots {s' : State} (hs : s.Ranked) (h : s'.slots = s.slots) : s'.Ranked := by
  intro i r hr
  refine hs i r ?_
  rw [← hr, slot, slot, h]

theorem Ranked.addSlot (hs : s.Ranked) (slot : Slot) (h : s.Knows slot.value) :
    (s.addSlot slot).2.Ranked := by
  intro i r hr
  rw [slot_addSlot] at hr
  split at hr
  · rename_i hi
    exact hi ▸ h r hr
  · exact hs i r hr

theorem Ranked.allocate (hs : s.Ranked) {v : Value} (h : s.Knows v) (o : ObjectId)
    (name : String) (readOnly : Bool) : (s.allocate o name v readOnly).2.Ranked :=
  (hs.addSlot ⟨v, readOnly, some name⟩ h).of_slots rfl

theorem Ranked.writeSlot (hs : s.Ranked) {v : Value} (h : v.isReference = false) (j : SlotId) :
    (s.writeSlot j v).Ranked := by
  intro i r hr
  rw [slot_writeSlot] at hr
  split at hr
  · change v = .reference r at hr
    rw [hr] at h
    cases h
  · exact hs i r hr

theorem knows_of_not_reference (s : State) {v : Value} (h : v.isReference = false) : s.Knows v := by
  rintro r rfl
  cases h

end State

namespace Discipline

/-- A ranking is kept: only values that are followed are stored. -/
def ranked : Discipline where
  inv s := s.Ranked
  leads _ _ := True
  good _ _ := True
  stored _ v := v.isReference = false
  raised _ e := e.value.isReference = false
  expr _ := True
  stmt _ := True
  host _ := True

theorem ranked_step {s s' : State} (h : s'.Ranked) : ranked.Step s s' :=
  ⟨h, trivial⟩

theorem ranked_pushes {s s₁ : State} (hs : s.Ranked) (h : s₁.slots = s.slots) :
    ranked.Pushes s s₁ where
  inv := hs.of_slots h
  good _ _ := trivial
  stored _ hv := hv
  back _ hs' _ := ranked_step (State.Ranked.of_slots hs' rfl)

theorem ranked_lawful : ranked.Lawful where
  refl _ := trivial
  trans _ _ := trivial
  good_mono _ _ := trivial
  stored_mono _ h := h
  raised_mono _ h := h
  good_of_stored _ := trivial
  literal := by
    intro v _ h
    cases v <;> first | rfl | cases h
  deref hs _ := hs.isReference_deref _
  this _ := rfl
  global _ := rfl
  container _ _ := rfl
  read _ _ := trivial
  raise _ h := h
  raised_value h := h
  make hs _ _ := ⟨ranked_step (hs.of_slots rfl), rfl⟩
  allocate _ _ hs _ hv :=
    ⟨ranked_step (hs.allocate (State.knows_of_not_reference _ hv) _ _ _), fun _ => trivial⟩
  method hs _ _ :=
    ⟨ranked_step (hs.addSlot _ (State.knows_of_not_reference _ rfl)), trivial⟩
  own _ _ _ := trivial
  found _ _ := trivial
  write hs _ _ hv := ranked_step (hs.writeSlot hv _)
  output _ hs := ranked_step (hs.of_slots rfl)
  errorOutput _ hs := ranked_step (hs.of_slots rfl)
  hold hs _ := ranked_step (hs.of_slots rfl)
  free _ hs _ := ranked_step (hs.of_slots rfl)
  settle := by
    intro s classes hs
    obtain ⟨_, _, h⟩ := s.settleAmong_sameButLives classes
    exact ranked_step (hs.of_slots (by rw [h]))
  pushCall _ hs _ := ranked_pushes hs rfl
  pushGlobal _ hs := ranked_pushes hs rfl
  pushBlock hs := ranked_pushes hs rfl
  good_pop _ := trivial
  stored_pop h := h
  raised_pop h := h
  expr_parts {e} _ := by cases e <;> simp [Expr.Parts, ranked]
  stmt_parts {statement} _ := by cases statement <;> simp [Stmt.Parts, ranked]
  script _ _ _ _ := trivial
  program _ _ _ _ _ := trivial
  hostOf _ _ _ := trivial

theorem ranked_hosts : ranked.twin.Hosts :=
  ranked_lawful.hosts (fun _ _ hs => ranked_step (hs.of_slots rfl)) (fun _ _ => trivial)
    fun _ _ => trivial

theorem ranked_of_ends {α : Type} {s s' : State} {Q : State → α → Prop} {outcome : Outcome α}
    (h : ranked.Ends s Q outcome) (hs' : outcome.EndsIn s') : s'.Ranked := by
  obtain ⟨a, rfl⟩ | ⟨e, rfl⟩ := hs'
  · exact h.1
  · exact h.1

end Discipline

/-- One operation of the interpreter or its host that creates or writes slots, or one that leaves the
slots alone. -/
inductive State.Operates (s : State) : State → Prop where
  | addSlot (slot : Slot) (h : s.Knows slot.value) : Operates s (s.addSlot slot).2
  | allocate (o : ObjectId) (name : String) (v : Value) (readOnly : Bool) (h : s.Knows v) :
      Operates s (s.allocate o name v readOnly).2
  | defineGlobal (name : String) (v : Value) (h : s.Knows v) : Operates s (s.defineGlobal name v)
  | member (o : ObjectId) (name : String) : Operates s (s.member o name).2
  | assign (r : Reference) (v : Value) {s' : State} (h : (Eval.assign r v s).EndsIn s') :
      Operates s s'
  | unary (op : UnaryOp) (v : Value) {s' : State} (h : (Eval.unary op v s).EndsIn s') :
      Operates s s'
  | evaluate (n : Nat) (e : Expr) {s' : State} (h : (Eval.evaluate n e s).EndsIn s') :
      Operates s s'
  | execute (n : Nat) (statement : Stmt) {s' : State}
      (h : (Eval.execute n statement s).EndsIn s') : Operates s s'
  | call (n : Nat) (v : Value) (args : List Value) (hargs : ∀ a ∈ args, a.isReference = false)
      {s' : State} (h : (Eval.call n v args s).EndsIn s') : Operates s s'
  | program (n : Nat) (program : Program) {s' : State}
      (h : (Eval.runProgram (Eval.interp n) program s).EndsIn s') : Operates s s'
  | run (n : Nat) (source : String) (mode : RunMode) {s' : State}
      (h : (Eval.run n source mode s).EndsIn s') : Operates s s'
  | other {s' : State} (h : s'.slots = s.slots) : Operates s s'

namespace State

theorem Ranked.operates {s s' : State} (hs : s.Ranked) (h : s.Operates s') : s'.Ranked := by
  have L := Discipline.ranked_lawful
  have I := L.interprets Discipline.ranked_hosts
  cases h with
  | addSlot slot h => exact hs.addSlot slot h
  | allocate o name v readOnly h => exact hs.allocate h o name readOnly
  | defineGlobal name v h => exact hs.allocate h s.global name false
  | member o name => exact (L.member name hs rfl).1.1
  | assign r v h => exact Discipline.ranked_of_ends (L.assign hs trivial trivial) h
  | unary op v h => exact Discipline.ranked_of_ends (L.unary op hs trivial) h
  | evaluate n e h => exact Discipline.ranked_of_ends ((I n).evaluate trivial hs) h
  | execute n statement h => exact Discipline.ranked_of_ends ((I n).execute trivial hs) h
  | call n v args hargs h => exact Discipline.ranked_of_ends ((I n).call hs trivial hargs) h
  | program n program h =>
    exact Discipline.ranked_of_ends (L.runProgram (I n) (fun _ _ => trivial) hs) h
  | run n source mode h => exact Discipline.ranked_of_ends (L.runCode (I n) source mode hs trivial) h
  | other h => exact hs.of_slots h

/-! The state of a new interpreter. -/

theorem ranked_of_slots_eq_empty {s : State} (h : s.slots = #[]) : s.Ranked := by
  intro i r hr
  rw [slot_of_size_le s (by simp [h])] at hr
  cases hr

theorem ranked_bare (globalMarker thisMarker : Option String) (files : Files) :
    (bare globalMarker thisMarker files).Ranked := by
  have hint : ∀ {s : State} (o name), s.Ranked → (s.allocate o name (.int 1) false).2.Ranked :=
    fun o name hs => hs.allocate (knows_of_not_reference _ rfl) o name false
  cases globalMarker <;> cases thisMarker
  · exact ranked_of_slots_eq_empty rfl
  · exact hint _ _ (ranked_of_slots_eq_empty rfl)
  · exact hint _ _ (ranked_of_slots_eq_empty rfl)
  · exact hint _ _ (hint _ _ (ranked_of_slots_eq_empty rfl))

theorem installs_ranked : Installs Ranked where
  object hs _ := hs.of_slots rfl
  allocate name readOnly hs _ _ := hs.allocate (knows_of_not_reference _ rfl) _ name readOnly
  method _ _ hs _ := hs.of_slots rfl

theorem ranked_install (globalMarker thisMarker : Option String) (files : Files) :
    (bare globalMarker thisMarker files).install.Ranked :=
  installs_ranked.new (ranked_bare globalMarker thisMarker files)

end State

end Scripting
