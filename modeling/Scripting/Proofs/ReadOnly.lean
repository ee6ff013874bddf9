import Mathlib.Logic.Relation
import Scripting.Proofs.Discipline.Restriction

/-!
Slots that cannot be written.

A slot is checked before it is written, at the moment of writing, so it does not matter what happens
between the evaluation of a target and the assignment. Main statement: running code leaves every
read-only slot as it is and never makes a slot read-only or writable (`readOnly_slots_kept`).
-/

namespace Scripting

/-- Every slot that there was is still there and can be written exactly if it could. One that could not
be written has the same value and the same name. -/
structure State.KeepsSlots (s s' : State) : Prop where
  size : s.slots.size ≤ s'.slots.size
  readOnly : ∀ i, i.index < s.slots.size → (s'.slot i).readOnly = (s.slot i).readOnly
  same : ∀ i, (s.slot i).readOnly = true → i.index < s'.slots.size ∧ s'.slot i = s.slot i

namespace State

variable {s s' : State}

/-- Only a slot that exists is read-only. -/
theorem lt_size_of_readOnly {i : SlotId} (h : (s.slot i).readOnly = true) :
    i.index < s.slots.size := by
  apply Nat.lt_of_not_le
  intro hle
  rw [slot_of_size_le s hle] at h
  cases h

namespace KeepsSlots

theorem of_slots (h : s'.slots = s.slots) : s.KeepsSlots s' where
  size := Nat.le_of_eq (congrArg Array.size h.symm)
  readOnly i _ := by rw [slot, slot, h]
  same i hi := by
    rw [slot, slot, h]
    exact ⟨lt_size_of_readOnly hi, rfl⟩

theorem refl (s : State) : s.KeepsSlots s :=
  of_slots rfl

theorem trans {s'' : State} (h : s.KeepsSlots s') (h' : s'.KeepsSlots s'') : s.KeepsSlots s'' where
  size := Nat.le_trans h.size h'.size
  readOnly i hi := by
    rw [h'.readOnly i (Nat.lt_of_lt_of_le hi h.size), h.readOnly i hi]
  same i hi := by
    have hsame := (h.same i hi).2
    rw [← hsame] at hi ⊢
    exact h'.same i hi

end KeepsSlots

theorem keepsSlots_addSlot (s : State) (slot : Slot) : s.KeepsSlots (s.addSlot slot).2 := by
  have hold : ∀ i : SlotId, i.index < s.slots.size → (s.addSlot slot).2.slot i = s.slot i := by
    intro i hi
    rw [slot_addSlot, if_neg (Nat.ne_of_lt hi)]
  have hsize : (s.addSlot slot).2.slots.size = s.slots.size + 1 := by simp [addSlot]
  refine ⟨by omega, fun i hi => by rw [hold i hi], fun i hi => ?_⟩
  have hlt := lt_size_of_readOnly hi
  exact ⟨by omega, hold i hlt⟩

theorem keepsSlots_allocate (s : State) (o : ObjectId) (name : String) (v : Value)
    (readOnly : Bool) : s.KeepsSlots (s.allocate o name v readOnly).2 :=
  (s.keepsSlots_addSlot ⟨v, readOnly, some name⟩).trans (.of_slots rfl)

/-- A slot that is written can be written, and stays so. -/
theorem keepsSlots_writeSlot {i : SlotId} (h : (s.slot i).readOnly = false) (v : Value) :
    s.KeepsSlots (s.writeSlot i v) where
  size := by simp [writeSlot]
  readOnly j _ := by
    rw [slot_writeSlot]
    split <;> rfl
  same j hj := by
    have hne : j ≠ i := by
      rintro rfl
      rw [h] at hj
      cases hj
    rw [slot_writeSlot, if_neg fun hji => hne hji.1]
    exact ⟨by simpa [writeSlot] using lt_size_of_readOnly hj, rfl⟩

end State

namespace Discipline

/-- The slots of an earlier state are kept. -/
def keepsSlots (start : State) : Discipline :=
  anything.restrict start.KeepsSlots fun _ => True

theorem keepsSlots_heapLaws (start : State) :
    anything.HeapLaws start.KeepsSlots fun _ => True where
  of_heap hs _ _ hslots := hs.trans (.of_slots hslots)
  settle := by
    intro s classes _ hs
    obtain ⟨_, _, h⟩ := s.settleAmong_sameButLives classes
    exact hs.trans (.of_slots (by rw [h]))
  make _ hs _ := hs.trans (.of_slots rfl)
  scope _ hs := hs.trans (.of_slots rfl)
  addSlot slot hs := hs.trans (State.keepsSlots_addSlot _ slot)
  allocate o name v readOnly hs := hs.trans (State.keepsSlots_allocate _ o name v readOnly)
  write v hs h := hs.trans (State.keepsSlots_writeSlot h v)
  hostOf _ _ _ _ := trivial

theorem keepsSlots_lawful (start : State) : (keepsSlots start).Lawful :=
  lawful_restrict anything_lawful (keepsSlots_heapLaws start)

theorem keepsSlots_hosts (start : State) : (keepsSlots start).twin.Hosts :=
  (keepsSlots_lawful start).hosts
    (fun _ _ hs => ⟨⟨trivial, hs.2.trans (.of_slots rfl)⟩, trivial⟩) (fun _ _ => trivial)
    fun _ _ => trivial

theorem keepsSlots_open (start : State) : (keepsSlots start).Open :=
  ⟨fun _ => trivial, fun _ => trivial, fun _ => trivial, fun _ _ => trivial, fun _ _ => trivial⟩

end Discipline

open Discipline in
theorem State.Runs.keepsSlots {s s' : State} (h : s.Runs s') : s.KeepsSlots s' :=
  ((keepsSlots_lawful s).runs (keepsSlots_hosts s) (keepsSlots_open s) ⟨trivial, .refl s⟩ h).2

/-- Whatever code is run, one after the other and however it ends: in the end, and whenever something is
asked for in the middle, every slot that was read-only before is still there with its value, its flag
and its name, and no slot has become read-only or writable. -/
theorem readOnly_slots_kept (s s' : State) (h : Relation.ReflTransGen State.Runs s s') :
    s.KeepsSlots s' := by
  induction h with
  | refl => exact .refl s
  | tail _ hlast ih => exact ih.trans hlast.keepsSlots

/-- The name stands for a read-only slot of the global object. -/
def State.fixesGlobal (s : State) (name : String) : Bool :=
  (s.own? s.global name).any fun i => (s.slot i).readOnly

theorem State.exists_of_fixesGlobal {s : State} {name : String} (h : s.fixesGlobal name = true) :
    ∃ i, s.own? s.global name = some i ∧ (s.slot i).readOnly = true := by
  unfold fixesGlobal at h
  cases hi : s.own? s.global name with
  | none =>
    rw [hi] at h
    cases h
  | some i =>
    rw [hi] at h
    exact ⟨i, rfl, h⟩

/-- A constant and a native function that a script tries to overwrite, once caught and once not. -/
theorem readOnly_slots_kept_const :
    ∃ s s' i j,
      (Eval.run 60 "const c = 1;" .script (State.initial default)).EndsIn s ∧
      (Eval.run 60 "try \x7b ++c; \x7d catch (e) \x7b \x7d include = 2;" .script s).EndsIn s' ∧
      s.own? s.global "c" = some i ∧ (s.slot i).readOnly = true ∧ s'.slot i = s.slot i ∧
      s.own? s.global "include" = some j ∧ (s.slot j).readOnly = true ∧ s'.slot j = s.slot j := by
  have hcheck : (Eval.run 60 "const c = 1;" .script (State.initial default)).state?.any (fun s =>
      s.fixesGlobal "c" && s.fixesGlobal "include" &&
        (Eval.run 60 "try \x7b ++c; \x7d catch (e) \x7b \x7d include = 2;" .script s).state?.isSome) =
      true := by
    decide +kernel
  obtain ⟨s, hs, h⟩ := Outcome.exists_endsIn hcheck
  simp only [Bool.and_eq_true] at h
  obtain ⟨⟨hc, hinclude⟩, hrun⟩ := h
  obtain ⟨s', hs', -⟩ := Outcome.exists_endsIn (p := fun _ => true) (by simpa using hrun)
  obtain ⟨i, hi, hfixed⟩ := State.exists_of_fixesGlobal hc
  obtain ⟨j, hj, hfixed'⟩ := State.exists_of_fixesGlobal hinclude
  have hkept := readOnly_slots_kept s s' (.single (.source 60 _ .script hs'))
  exact ⟨s, s', i, j, hs, hs', hi, hfixed, (hkept.same i hfixed).2, hj, hfixed',
    (hkept.same j hfixed').2⟩

end Scripting
