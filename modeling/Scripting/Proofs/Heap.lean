import Scripting.State.Initial

/-!
Reading slots, objects and classes after a change of the state.
-/

namespace Scripting.State

variable (s : State)

/-! Slots. -/

theorem slot_of_size_le {i : SlotId} (h : s.slots.size ≤ i.index) : s.slot i = default := by
  simp [slot, Array.getD, Nat.not_lt.2 h]

theorem slot_addSlot (slot : Slot) (i : SlotId) :
    (s.addSlot slot).2.slot i = if i.index = s.slots.size then slot else s.slot i := by
  simp only [State.slot, addSlot, Array.getD_eq_getD_getElem?, Array.getElem?_push]
  split <;> simp_all

theorem slot_writeSlot (j i : SlotId) (v : Value) :
    (s.writeSlot j v).slot i =
      if i = j ∧ i.index < s.slots.size then { s.slot i with value := v } else s.slot i := by
  obtain ⟨i⟩ := i
  obtain ⟨j⟩ := j
  simp only [State.slot, writeSlot, Array.getD_eq_getD_getElem?, Array.getElem?_modify]
  by_cases h : j = i
  · subst h
    by_cases hsize : j < s.slots.size <;> simp [hsize]
  · simp [h, Ne.symm h]

theorem slot_allocate (o : ObjectId) (name : String) (v : Value) (readOnly : Bool) (i : SlotId) :
    (s.allocate o name v readOnly).2.slot i =
      if i.index = s.slots.size then ⟨v, readOnly, some name⟩ else s.slot i :=
  s.slot_addSlot _ i

/-! Following references. -/

theorem deref_of_not_reference {v : Value} (h : v.isReference = false) : s.deref v = v := by
  cases v with
  | reference r => cases h
  | _ => rfl

/-- If no slot stores a reference, following one ends after one step. -/
theorem deref_reference {r : Reference} (h : (s.read r).isReference = false) :
    s.deref (.reference r) = s.read r := by
  change s.followUpTo s.slots.size (s.read r) = s.read r
  generalize s.read r = v at h
  cases v with
  | reference r => cases h
  | _ => cases s.slots.size <;> rfl

/-! Classes. -/

theorem base_of_base? {s : State} {c b : ClassId} (h : s.base? c = some b) :
    (s.classInfo c).base = some b ∧ (s.classInfo b).alive = true := by
  unfold base? at h
  split at h
  · rename_i b' hb
    split at h
    · rename_i halive
      cases h
      exact ⟨hb, halive⟩
    · cases h
  · cases h

theorem classInfo_addClass (c : Class) (c' : ClassId) :
    (s.addClass c).2.classInfo c' = if c'.index = s.classes.size then c else s.classInfo c' := by
  simp only [State.classInfo, addClass, Array.getD_eq_getD_getElem?, Array.getElem?_push]
  split <;> simp_all

theorem classInfo_bindMethod (c c' : ClassId) (name : String) (f : ObjectId) :
    (s.bindMethod c name f).classInfo c' =
      if c' = c ∧ c'.index < s.classes.size then
        { s.classInfo c' with methods := (s.classInfo c').methods.insert name f }
      else s.classInfo c' := by
  obtain ⟨c⟩ := c
  obtain ⟨c'⟩ := c'
  simp only [State.classInfo, bindMethod, Array.getD_eq_getD_getElem?, Array.getElem?_modify]
  by_cases h : c = c'
  · subst h
    by_cases hsize : c < s.classes.size <;> simp [hsize]
  · simp [h, Ne.symm h]

theorem methods_bindMethod (c c' : ClassId) (name : String) (f : ObjectId) :
    ((s.bindMethod c name f).classInfo c').methods =
      if c' = c ∧ c'.index < s.classes.size then (s.classInfo c').methods.insert name f
      else (s.classInfo c').methods := by
  rw [classInfo_bindMethod]
  split <;> rfl

/-! Objects. -/

theorem object_of_size_le {o : ObjectId} (h : s.objects.size ≤ o.index) : s.object o = default := by
  simp [object, Array.getD, Nat.not_lt.2 h]

theorem object_addObject (object : Object) (o : ObjectId) :
    (s.addObject object).2.object o = if o.index = s.objects.size then object else s.object o := by
  simp only [State.object, addObject, Array.getD_eq_getD_getElem?, Array.getElem?_push]
  split <;> simp_all

theorem callable?_newFunction (callable : Callable) :
    ((s.newFunction callable).2.object (s.newFunction callable).1).callable? = some callable := by
  rw [newFunction, object_addObject]
  exact congrArg Object.callable? (if_pos rfl)

theorem object_modify (o' o : ObjectId) (f : Object → Object) :
    ({ s with objects := s.objects.modify o'.index f } : State).object o =
      if o = o' ∧ o.index < s.objects.size then f (s.object o) else s.object o := by
  obtain ⟨o⟩ := o
  obtain ⟨o'⟩ := o'
  simp only [State.object, Array.getD_eq_getD_getElem?, Array.getElem?_modify]
  by_cases h : o' = o
  · subst h
    by_cases hsize : o' < s.objects.size <;> simp [hsize]
  · simp [h, Ne.symm h]

@[simp] theorem object_addSlot (slot : Slot) (o : ObjectId) :
    (s.addSlot slot).2.object o = s.object o := rfl

/-- A call makes no functions. -/
theorem callable?_pushCall (name : String) (container : Option ObjectId) (o : ObjectId) :
    ((s.pushCall name container).object o).callable? = (s.object o).callable? := by
  change ((s.addObject { payload := .scope none }).2.object o).callable? = _
  rw [object_addObject]
  split
  · rename_i hnew
    rw [s.object_of_size_le (Nat.le_of_eq hnew.symm)]
    rfl
  · rfl

theorem payload_bindMember (o' o : ObjectId) (name : String) (i : SlotId) :
    ((s.bindMember o' name i).object o).payload = (s.object o).payload := by
  rw [bindMember, object_modify]
  split <;> rfl

theorem classId_bindMember (o' o : ObjectId) (name : String) (i : SlotId) :
    ((s.bindMember o' name i).object o).classId = (s.object o).classId := by
  rw [bindMember, object_modify]
  split <;> rfl

theorem object_allocate_of_ne {o o' : ObjectId} (h : o' ≠ o) (name : String) (v : Value)
    (readOnly : Bool) : (s.allocate o name v readOnly).2.object o' = s.object o' := by
  change ((s.addSlot _).2.bindMember o name _).object o' = _
  rw [bindMember, object_modify, if_neg fun ho => h ho.1, object_addSlot]

theorem payload_allocate (o' o : ObjectId) (name : String) (v : Value) (readOnly : Bool) :
    ((s.allocate o' name v readOnly).2.object o).payload = (s.object o).payload :=
  payload_bindMember ..

theorem classId_allocate (o' o : ObjectId) (name : String) (v : Value) (readOnly : Bool) :
    ((s.allocate o' name v readOnly).2.object o).classId = (s.object o).classId :=
  classId_bindMember ..

theorem own?_bindMember (o o' : ObjectId) (name name' : String) (i : SlotId) :
    (s.bindMember o name i).own? o' name' =
      if o' = o ∧ o'.index < s.objects.size ∧ name = name' then some i else s.own? o' name' := by
  unfold own?
  rw [bindMember, object_modify]
  by_cases ho : o' = o ∧ o'.index < s.objects.size
  · obtain ⟨rfl, hsize⟩ := ho
    simp [Table.find?_insert, hsize]
  · rw [if_neg ho, if_neg fun h => ho ⟨h.1, h.2.1⟩]

theorem exists_method_of_objectMethod? {s : State} {o f : ObjectId} {name : String}
    (h : s.objectMethod? o name = some f) : ∃ k, (s.classInfo k).methods.find? name = some f := by
  obtain ⟨c, -, hc⟩ := Option.bind_eq_some_iff.1 h
  obtain ⟨k, -, hk⟩ := List.exists_of_findSome?_eq_some hc
  exact ⟨k, hk⟩

/-! Around the heap. -/

/-- A change of what is outside of the heap. -/
def SameHeap (s s' : State) : Prop :=
  ∃ frames output errorOutput held, s' = { s with
    frames := frames, output := output, errorOutput := errorOutput, held := held }

end Scripting.State
