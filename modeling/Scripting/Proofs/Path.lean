import Scripting.Proofs.Initial
import Scripting.Proofs.Quiet

/-!
Paths: an identifier, or one with member accesses behind it.

Evaluating a path leads to a reference, or fails at an access to what is no object. Slots may be added
on the way, but those that there are stay as they are (`Eval.evaluate_path`).
-/

namespace Scripting

inductive Expr.IsPath : Expr → Prop where
  | identifier (span : Span) (name : String) : IsPath (.identifier span name)
  | member (span : Span) {object : Expr} (name : String) (h : IsPath object) :
      IsPath (.member span object name)

namespace State

/-- Every slot that there was is still there, as it was. -/
structure KeepsOld (s s' : State) : Prop where
  size : s.slots.size ≤ s'.slots.size
  slot : ∀ i, i.index < s.slots.size → s'.slot i = s.slot i

/-- Every member has a slot that exists. -/
def HasSlots (s : State) : Prop :=
  ∀ o name i, s.own? o name = some i → i.index < s.slots.size

variable {s s' s'' : State} {name : String}

namespace KeepsOld

theorem of_slots (h : s'.slots = s.slots) : s.KeepsOld s' where
  size := Nat.le_of_eq (congrArg Array.size h.symm)
  slot i _ := by rw [State.slot, State.slot, h]

theorem refl (s : State) : s.KeepsOld s :=
  of_slots rfl

theorem trans (h : s.KeepsOld s') (h' : s'.KeepsOld s'') : s.KeepsOld s'' where
  size := Nat.le_trans h.size h'.size
  slot i hi := by rw [h'.slot i (Nat.lt_of_lt_of_le hi h.size), h.slot i hi]

end KeepsOld

theorem keepsOld_addSlot (s : State) (slot : Slot) : s.KeepsOld (s.addSlot slot).2 where
  size := by simp [addSlot]
  slot i hi := by rw [slot_addSlot, if_neg (Nat.ne_of_lt hi)]

/-- One slot is added, and other things than slots may change. -/
theorem keepsOld_of_push {slot : Slot} (h : s'.slots = s.slots.push slot) : s.KeepsOld s' :=
  (s.keepsOld_addSlot slot).trans (.of_slots h)

theorem keepsOld_allocate (s : State) (o : ObjectId) (name : String) (v : Value)
    (readOnly : Bool) : s.KeepsOld (s.allocate o name v readOnly).2 :=
  keepsOld_of_push rfl

theorem keepsOld_newException (s : State) (c : ClassId) (message : String) :
    s.KeepsOld (s.newException c message).2 :=
  keepsOld_of_push rfl

theorem SameButLives.keepsOld (h : s.SameButLives s') : s.KeepsOld s' := by
  obtain ⟨_, _, rfl⟩ := h
  exact .of_slots rfl

theorem HasSlots.of_sameButLives (hs : s.HasSlots) (h : s.SameButLives s') : s'.HasSlots := by
  obtain ⟨_, _, rfl⟩ := h
  exact hs

theorem HasSlots.addSlot (hs : s.HasSlots) (slot : Slot) : (s.addSlot slot).2.HasSlots := by
  intro o name i hi
  exact Nat.lt_of_lt_of_le (hs o name i hi) (s.keepsOld_addSlot slot).size

theorem HasSlots.allocate (hs : s.HasSlots) (o : ObjectId) (name : String) (v : Value)
    (readOnly : Bool) : (s.allocate o name v readOnly).2.HasSlots := by
  intro o' name' i hi
  have hsize := (s.keepsOld_allocate o name v readOnly).size
  have hnew : s.slots.size < (s.allocate o name v readOnly).2.slots.size := by
    simp [State.allocate, State.addSlot, bindMember]
  change ((s.addSlot _).2.bindMember o name _).own? o' name' = some i at hi
  rw [own?_bindMember] at hi
  split at hi
  · cases hi
    exact hnew
  · exact Nat.lt_of_lt_of_le (hs o' name' i hi) hsize

/-- An object without members. -/
theorem HasSlots.addObject (hs : s.HasSlots) {object : Object} (h : object.members = {}) :
    (s.addObject object).2.HasSlots := by
  intro o name i hi
  rw [own?, object_addObject] at hi
  split at hi
  · rw [h] at hi
    cases hi
  · exact hs o name i hi

theorem installs_hasSlots : Installs HasSlots where
  object hs ho := hs.addObject (by cases ho <;> rfl)
  allocate name readOnly hs _ _ := hs.allocate _ name _ readOnly
  method _ _ hs _ := hs

theorem hasSlots_bare (globalMarker thisMarker : Option String) (files : Files) :
    (bare globalMarker thisMarker files).HasSlots := by
  have hempty : ({ classes := initialClasses, files := files } : State).HasSlots := nofun
  have hobjects {x y : Object} (hx : x.members = {}) (hy : y.members = {}) :=
    (hempty.addObject hx).addObject hy
  cases globalMarker <;> cases thisMarker
  · exact hobjects rfl rfl
  · exact (hobjects rfl rfl).allocate _ _ _ _
  · exact (hobjects rfl rfl).allocate _ _ _ _
  · exact ((hobjects rfl rfl).allocate _ _ _ _).allocate _ _ _ _

theorem hasSlots_install (globalMarker thisMarker : Option String) (files : Files) :
    (bare globalMarker thisMarker files).install.HasSlots :=
  installs_hasSlots.new (hasSlots_bare globalMarker thisMarker files)

/-! Members of an object. -/

theorem member_of_method {o f : ObjectId} (h : s.objectMethod? o name = some f) :
    s.member o name =
      (⟨⟨s.slots.size⟩, some o, some name⟩, (s.addSlot ⟨.object f, true, some name⟩).2) := by
  simp [member, peek, h, addSlot]

theorem member_of_own {o : ObjectId} {i : SlotId} (h : s.objectMethod? o name = none)
    (hown : s.own? o name = some i) : s.member o name = (⟨i, some o, some name⟩, s) := by
  simp [member, peek, h, hown]

theorem member_of_absent {o : ObjectId} (h : s.objectMethod? o name = none)
    (hown : s.own? o name = none) :
    s.member o name =
      (⟨⟨s.slots.size⟩, some o, some name⟩, (s.allocate o name .undefined false).2) := by
  simp [member, peek, h, hown, allocate, addSlot]

/-- Where a lookup may lead: to a slot of the new state, in which the old slots are as they were. -/
structure Leads (s : State) (found : Reference × State) : Prop where
  keeps : s.KeepsOld found.2
  slots : s.HasSlots → found.2.HasSlots
  exists_slot : s.HasSlots → found.1.slot.index < found.2.slots.size

theorem leads_member (s : State) (o : ObjectId) (name : String) : s.Leads (s.member o name) := by
  cases hmethod : s.objectMethod? o name with
  | some f =>
    rw [member_of_method hmethod]
    refine ⟨s.keepsOld_addSlot _, fun hs => hs.addSlot _, fun _ => ?_⟩
    simp [addSlot]
  | none =>
    cases hown : s.own? o name with
    | some i =>
      rw [member_of_own hmethod hown]
      exact ⟨.refl s, fun hs => hs, fun hs => hs o name i hown⟩
    | none =>
      rw [member_of_absent hmethod hown]
      refine ⟨s.keepsOld_allocate o name _ _, fun hs => hs.allocate o name _ _, fun _ => ?_⟩
      simp [allocate, addSlot, bindMember]

theorem findScope_own {name : String} {n : Nat} {scope o : ObjectId} {i : SlotId}
    (h : s.findScope name n scope = some (o, i)) : s.own? o name = some i := by
  induction n generalizing scope with
  | zero => cases h
  | succ n ih =>
    unfold findScope at h
    split at h
    · rename_i hown
      cases h
      exact hown
    · split at h
      · exact ih h
      · cases h

theorem leads_resolve (s : State) (name : String) : s.Leads (s.resolve name) := by
  unfold resolve
  split
  · rename_i scope i hfound
    exact ⟨.refl s, fun hs => hs, fun hs => hs scope name i (findScope_own hfound)⟩
  · exact s.leads_member s.global name

end State

namespace Eval

variable {s : State}

/-- A lookup after it is settled which classes are alive. -/
theorem exists_update {o : ObjectId} {f : State → Reference × State}
    (hf : ∀ s : State, s.Leads (f s)) (s : State) :
    ∃ r s', (settleObject o >>= fun _ => update f) s = .ok r s' ∧ s.Leads (r, s') := by
  obtain ⟨s₁, hsettle, hsettles⟩ := settleObject_ok o s
  have hsame := hsettles.same
  obtain ⟨hkeeps, hslots, hexists⟩ := hf s₁
  refine ⟨(f s₁).1, (f s₁).2, ?_, hsame.keepsOld.trans hkeeps, ?_, ?_⟩
  · rw [bind_of_ok hsettle]
    rfl
  · exact fun hs => hslots (hs.of_sameButLives hsame)
  · exact fun hs => hexists (hs.of_sameButLives hsame)

theorem memberOf_ok (o : ObjectId) (name : String) (s : State) :
    ∃ r s', memberOf o name s = .ok r s' ∧ s.Leads (r, s') :=
  exists_update (fun s => s.leads_member o name) s

theorem resolve_ok (name : String) (s : State) :
    ∃ r s', resolve name s = .ok r s' ∧ s.Leads (r, s') :=
  exists_update (fun s => s.leads_resolve name) s

theorem evaluate_identifier (n : Nat) (span : Span) (name : String) (s : State) :
    evaluate (n + 1) (.identifier span name) s =
      (resolve name >>= fun r => pure (.reference r)) s := rfl

theorem evaluate_member (n : Nat) (span : Span) (object : Expr) (name : String) (s : State) :
    evaluate (n + 1) (.member span object name) s =
      (evaluate n object >>= fun v => toObject v >>= fun o => memberOf o name >>= fun r =>
        pure (.reference r)) s := rfl

/-- How the evaluation of a path may end. -/
def EndsPath (s : State) : Outcome Value → Prop
  | .ok v s' => ∃ r, v = .reference r ∧ s.Leads (r, s')
  | .thrown _ s' => s.KeepsOld s'
  | .outOfFuel => True
  | .needsFile _ => False

theorem evaluate_path {x : Expr} (hx : x.IsPath) (n : Nat) (s : State) :
    EndsPath s (evaluate n x s) := by
  induction hx generalizing n with
  | identifier span name =>
    cases n with
    | zero => trivial
    | succ n =>
      obtain ⟨r, s', hresolve, hleads⟩ := resolve_ok name s
      rw [evaluate_identifier, bind_of_ok hresolve]
      exact ⟨r, rfl, hleads⟩
  | @member span object name hobject ih =>
    cases n with
    | zero => trivial
    | succ n =>
      have hinner := ih n
      rw [evaluate_member]
      cases hrun : evaluate n object s with
      | ok v s₁ =>
        rw [hrun] at hinner
        obtain ⟨_, _, hfirst⟩ := hinner
        by_cases hbehind : ∃ o, s₁.deref v = .object o
        · obtain ⟨o, ho⟩ := hbehind
          obtain ⟨r, s₂, hmember, hsecond⟩ := memberOf_ok o name s₁
          rw [bind_of_ok hrun, bind_of_ok (toObject_of_object ho), bind_of_ok hmember]
          refine ⟨r, rfl, hfirst.keeps.trans hsecond.keeps, ?_, ?_⟩
          · exact fun hs => hsecond.slots (hfirst.slots hs)
          · exact fun hs => hsecond.exists_slot (hfirst.slots hs)
        · have hfail := toObject_of_not_object (not_exists.1 hbehind)
          rw [bind_of_ok hrun, bind_of_thrown hfail]
          exact hfirst.keeps.trans (s₁.keepsOld_newException _ _)
      | thrown e s₁ =>
        rw [hrun] at hinner
        rw [bind_of_thrown hrun]
        exact hinner
      | outOfFuel =>
        change EndsPath s (andThen (evaluate n object) _ s)
        rw [andThen, hrun]
        trivial
      | needsFile path =>
        rw [hrun] at hinner
        exact hinner.elim

end Eval

end Scripting
