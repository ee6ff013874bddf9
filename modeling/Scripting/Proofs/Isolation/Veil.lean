import Scripting.Proofs.Isolation.Sealed
import Scripting.Proofs.Isolation.Tables

/-!
Two runs that start in states which differ behind a veil: in the contents of the scopes that exist at
the start.

Objects have the same identifiers in both runs. Slots need not: the two states may have different
numbers of local names, so two slots correspond if they belong to the same member of the same object or
were added at the same time since the start. Main statements: every primitive change keeps the veil
closed (`Veiled`), and no run touches what is behind it (`State.LeavesScopes`).
-/

namespace Scripting

variable {o : ObjectId}

namespace State

/-- The scopes that a state has and the slots of their names are the same in a later state. -/
structure LeavesScopes (s s' : State) : Prop where
  object : ∀ o, s.IsScope o → s'.object o = s.object o
  slot : ∀ o name i, s.IsScope o → s.own? o name = some i → s'.slot i = s.slot i

/-- What a state has besides its heap: classes, global objects, frames, streams and files. -/
structure Setting where
  classes : Array Class
  global : ObjectId
  globalThis : ObjectId
  frames : List Frame
  output : Stream
  errorOutput : Stream
  files : Files

def setting (s : State) : Setting where
  classes := s.classes
  global := s.global
  globalThis := s.globalThis
  frames := s.frames
  output := s.output
  errorOutput := s.errorOutput
  files := s.files

end State

/-- Slots of two runs that started in `s` and `t` and correspond to each other: those of the same member
of an object that is no scope, and those that were added at the same time. -/
def Paired (s t : State) (i j : SlotId) : Prop :=
  (∃ o name, ¬s.IsScope o ∧ s.own? o name = some i ∧ t.own? o name = some j) ∨
    ∃ k, i.index = s.slots.size + k ∧ j.index = t.slots.size + k

/-- Values that are no references, and not a scope of the state in which the runs started. -/
def Shown (s : State) : Value → Prop
  | .object o => ¬s.IsScope o
  | .reference _ => False
  | _ => True

/-- An object as the two runs see it. -/
structure Seen (s t : State) (x y : Object) : Prop where
  classId : x.classId = y.classId
  payload : x.payload = y.payload
  members : Table.Related (Paired s t) x.members y.members
  parent : ∀ o, x.parentScope? = some o → ¬s.IsScope o
  native : ∀ f h, x.callable? = some (.native f) → f.callback ≠ .host h

/-- An object without members that is neither a scope nor a function. -/
theorem Seen.plain {s t : State} (x : Object) (hmembers : x.members = ∅)
    (hparent : x.parentScope? = none) (hcallable : x.callable? = none) : Seen s t x x := by
  refine ⟨rfl, rfl, ?_, ?_, ?_⟩
  · rw [hmembers]
    exact Table.related_empty _
  · intro o ho
    rw [hparent] at ho
    cases ho
  · intro f h hf
    rw [hcallable] at hf
    cases hf

/-- The states of two runs that started in `s` and `t` agree in all but the scopes that existed then,
and these are untouched. -/
structure Veiled (s t : State) (σ : Duo) : Prop where
  setting : σ.left.setting = σ.right.setting
  immortal : σ.left.mortal = [] ∧ σ.right.mortal = []
  global : ¬s.IsScope σ.left.global
  globalThis : ¬s.IsScope σ.left.globalThis
  current : ∀ frame ∈ σ.left.frames.head?, ¬s.IsScope frame.this ∧ ¬s.IsScope frame.scope
  methods : ∀ c name f, (σ.left.classInfo c).methods.find? name = some f → ¬s.IsScope f
  size_le : s.objects.size ≤ σ.left.objects.size
  size : σ.left.objects.size = σ.right.objects.size
  added : ∃ k, σ.left.slots.size = s.slots.size + k ∧ σ.right.slots.size = t.slots.size + k
  object : ∀ o, ¬s.IsScope o → Seen s t (σ.left.object o) (σ.right.object o)
  slot : ∀ i j, Paired s t i j → σ.left.slot i = σ.right.slot j
  shown : ∀ i j, Paired s t i j → Shown s (σ.left.slot i).value
  leaves_left : s.LeavesScopes σ.left
  leaves_right : t.LeavesScopes σ.right

/-- The states in which two runs start: both are sealed, they have the same objects, and the same of
these are scopes. -/
structure Starts (s t : State) : Prop where
  left : s.Sealed
  right : t.Sealed
  size : s.objects.size = t.objects.size
  scopes : ∀ o, s.IsScope o ↔ t.IsScope o

namespace Starts

variable {s t : State} (S : Starts s t) {i i' j j' : SlotId}
include S

/-- A slot corresponds to at most one other. -/
theorem paired_iff (h : Paired s t i j) (h' : Paired s t i' j') : i = i' ↔ j = j' := by
  rcases h with ⟨o, name, -, hi, hj⟩ | ⟨k, hi, hj⟩
  · rcases h' with ⟨o', name', -, hi', hj'⟩ | ⟨k', hi', hj'⟩
    · constructor
      · rintro rfl
        obtain ⟨rfl, rfl⟩ := S.left.owner _ _ _ _ _ hi hi'
        exact Option.some.inj (hj.symm.trans hj')
      · rintro rfl
        obtain ⟨rfl, rfl⟩ := S.right.owner _ _ _ _ _ hj hj'
        exact Option.some.inj (hi.symm.trans hi')
    · -- a slot that existed at the start and one that was added
      have hleft := S.left.owned _ _ _ hi
      have hright := S.right.owned _ _ _ hj
      constructor
      · rintro rfl
        omega
      · rintro rfl
        omega
  · rcases h' with ⟨o', name', -, hi', hj'⟩ | ⟨k', hi', hj'⟩
    · have hleft := S.left.owned _ _ _ hi'
      have hright := S.right.owned _ _ _ hj'
      constructor
      · rintro rfl
        omega
      · rintro rfl
        omega
    · cases i
      cases i'
      cases j
      cases j'
      simp only [SlotId.mk.injEq] at *
      omega

/-- Corresponding slots exist at the same time. -/
theorem lt_iff (h : Paired s t i j) {m n k : Nat} (hm : m = s.slots.size + k)
    (hn : n = t.slots.size + k) : (i.index < m ↔ j.index < n) ∧ (i.index = m ↔ j.index = n) := by
  rcases h with ⟨o, name, -, hi, hj⟩ | ⟨k', hi, hj⟩
  · have hleft := S.left.owned _ _ _ hi
    have hright := S.right.owned _ _ _ hj
    omega
  · omega

/-- A slot of a scope corresponds to none. -/
theorem left_not_local (h : Paired s t i j) (ho : s.IsScope o) (name : String) :
    s.own? o name ≠ some i := by
  intro hown
  rcases h with ⟨o', name', ho', hi, -⟩ | ⟨k, hi, -⟩
  · obtain ⟨rfl, -⟩ := S.left.owner _ _ _ _ _ hown hi
    exact ho' ho
  · have := S.left.owned _ _ _ hown
    omega

theorem right_not_local (h : Paired s t i j) (ho : t.IsScope o) (name : String) :
    t.own? o name ≠ some j := by
  intro hown
  rcases h with ⟨o', name', ho', -, hj⟩ | ⟨k, -, hj⟩
  · obtain ⟨rfl, -⟩ := S.right.owner _ _ _ _ _ hown hj
    exact ho' ((S.scopes o).2 ho)
  · have := S.right.owned _ _ _ hown
    omega

end Starts

namespace State.LeavesScopes

variable {s s' : State}

variable (h : s.LeavesScopes s')
include h

theorem addObject (hsize : s.objects.size ≤ s'.objects.size) (object : Object) :
    s.LeavesScopes (s'.addObject object).2 where
  object o ho := by
    have hlt := ho.lt_size
    rw [object_addObject, if_neg (by omega)]
    exact h.object o ho
  slot := h.slot

theorem addSlot (hs : s.Sealed) (hsize : s.slots.size ≤ s'.slots.size) (slot : Slot) :
    s.LeavesScopes (s'.addSlot slot).2 where
  object := h.object
  slot o name i ho hi := by
    have hlt := hs.owned o name i hi
    rw [slot_addSlot, if_neg (by omega)]
    exact h.slot o name i ho hi

theorem bindMember (ho : ¬s.IsScope o) (name : String) (i : SlotId) :
    s.LeavesScopes (s'.bindMember o name i) where
  object o' ho' := by
    rw [State.bindMember, object_modify, if_neg]
    · exact h.object o' ho'
    · rintro ⟨rfl, -⟩
      exact ho ho'
  slot := h.slot

theorem writeSlot {i : SlotId} (hi : ∀ o name, s.IsScope o → s.own? o name ≠ some i) (v : Value) :
    s.LeavesScopes (s'.writeSlot i v) where
  object := h.object
  slot o name j ho hj := by
    rw [slot_writeSlot, if_neg]
    · exact h.slot o name j ho hj
    · rintro ⟨rfl, -⟩
      exact hi o name ho hj

end State.LeavesScopes

namespace Veiled

variable {s t : State} {σ : Duo} (h : Veiled s t σ)
include h

/-- An object that was added since the start is no scope of the start. -/
theorem new_not_scope (ho : σ.left.objects.size ≤ o.index) : ¬s.IsScope o := by
  intro hscope
  have hlt := hscope.lt_size
  have hle := h.size_le
  omega

/-- The slots that are added at the same time correspond to each other. -/
theorem paired_added (slot : Slot) :
    Paired s t (σ.left.addSlot slot).1 (σ.right.addSlot slot).1 := by
  obtain ⟨k, hleft, hright⟩ := h.added
  exact .inr ⟨k, hleft, hright⟩

variable (S : Starts s t)
include S

theorem addObject {object : Object} (hobject : Seen s t object object) :
    Veiled s t (σ.map fun s => (s.addObject object).2) := by
  have hle := h.size_le
  have hsize := h.size
  have hstart := S.size
  refine { h with size_le := ?_, size := ?_, object := ?_, leaves_left := ?_, leaves_right := ?_ }
  · simp only [Duo.map, State.addObject, Array.size_push]
    omega
  · simp only [Duo.map, State.addObject, Array.size_push]
    omega
  · intro o ho
    simp only [Duo.map, State.object_addObject, ← hsize]
    split
    · exact hobject
    · exact h.object o ho
  · exact h.leaves_left.addObject hle object
  · exact h.leaves_right.addObject (by omega) object

theorem addSlot {slot : Slot} (hslot : Shown s slot.value) :
    Veiled s t (σ.map fun s => (s.addSlot slot).2) := by
  obtain ⟨k, hleft, hright⟩ := h.added
  refine { h with added := ?_, slot := ?_, shown := ?_, leaves_left := ?_, leaves_right := ?_ }
  · refine ⟨k + 1, ?_, ?_⟩
    · simp only [Duo.map, State.addSlot, Array.size_push]
      omega
    · simp only [Duo.map, State.addSlot, Array.size_push]
      omega
  · intro i j hij
    have hsame := (S.lt_iff hij hleft hright).2
    simp only [Duo.map, State.slot_addSlot, hsame, h.slot i j hij]
  · intro i j hij
    simp only [Duo.map, State.slot_addSlot]
    split
    · exact hslot
    · exact h.shown i j hij
  · exact h.leaves_left.addSlot S.left (by omega) slot
  · exact h.leaves_right.addSlot S.right (by omega) slot

theorem bindMember (ho : ¬s.IsScope o) (name : String) {i j : SlotId} (hij : Paired s t i j) :
    Veiled s t ⟨σ.left.bindMember o name i, σ.right.bindMember o name j⟩ := by
  have hsize := h.size
  have hle := h.size_le
  refine { h with size_le := ?_, size := ?_, object := ?_, leaves_left := ?_, leaves_right := ?_ }
  · simpa [State.bindMember] using hle
  · simpa [State.bindMember] using hsize
  · intro o' ho'
    have hseen := h.object o' ho'
    simp only [State.bindMember, State.object_modify, ← hsize]
    split
    · exact { hseen with members := hseen.members.insert name hij }
    · exact hseen
  · exact h.leaves_left.bindMember ho name i
  · exact h.leaves_right.bindMember (fun hscope => ho ((S.scopes o).2 hscope)) name j

theorem allocate (ho : ¬s.IsScope o) (name : String) {v : Value} (hv : Shown s v)
    (readOnly : Bool) : Veiled s t (σ.map fun s => (s.allocate o name v readOnly).2) :=
  (h.addSlot S hv).bindMember S ho name (h.paired_added ⟨v, readOnly, some name⟩)

theorem writeSlot {i j : SlotId} (hij : Paired s t i j) {v : Value} (hv : Shown s v) :
    Veiled s t ⟨σ.left.writeSlot i v, σ.right.writeSlot j v⟩ := by
  obtain ⟨k, hleft, hright⟩ := h.added
  refine { h with added := ?_, slot := ?_, shown := ?_, leaves_left := ?_, leaves_right := ?_ }
  · exact ⟨k, by simpa [State.writeSlot] using hleft, by simpa [State.writeSlot] using hright⟩
  · intro i' j' hij'
    have hsame := S.paired_iff hij' hij
    have hlt := (S.lt_iff hij' hleft hright).1
    simp only [State.slot_writeSlot, hsame, hlt, h.slot i' j' hij']
  · intro i' j' hij'
    simp only [State.slot_writeSlot]
    split
    · exact hv
    · exact h.shown i' j' hij'
  · exact h.leaves_left.writeSlot (fun o name ho => S.left_not_local hij ho name) v
  · exact h.leaves_right.writeSlot (fun o name ho => S.right_not_local hij ho name) v

end Veiled

end Scripting
