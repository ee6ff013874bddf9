import Scripting.Proofs.Heap
import Scripting.Proofs.Lives

/-!
Closed states: whatever the state refers to exists.

Unlike in an intact state, scopes may be in the hands of scripts and hosts. Each primitive change of the
state keeps it closed, as long as what is new in it refers to what exists.
-/

namespace Scripting.State

/-- A thing that exists. -/
def Has (s : State) : Node → Prop
  | .object o => o.index < s.objects.size
  | .slot i => i.index < s.slots.size
  | .class c => c.index < s.classes.size

/-- A value all of whose things exist. -/
def HasValue (s : State) (v : Value) : Prop :=
  ∀ node ∈ v.nodes, s.Has node

structure Closed (s : State) : Prop where
  held : ∀ node ∈ s.held, s.Has node
  frames : ∀ frame ∈ s.frames, s.Has (.object frame.this) ∧ s.Has (.object frame.scope)
  global : s.Has (.object s.global)
  globalThis : s.Has (.object s.globalThis)
  links : ∀ node, ∀ child ∈ s.heldBy node, s.Has child

variable {s s' : State} {v : Value}

theorem has_of_sizes {node : Node} (h : s.Has node) (hobjects : s.objects.size ≤ s'.objects.size)
    (hslots : s.slots.size ≤ s'.slots.size) (hclasses : s.classes.size ≤ s'.classes.size) :
    s'.Has node := by
  cases node with
  | object o => exact Nat.lt_of_lt_of_le h hobjects
  | slot i => exact Nat.lt_of_lt_of_le h hslots
  | «class» c => exact Nat.lt_of_lt_of_le h hclasses

theorem hasValue_object {o : ObjectId} : s.HasValue (.object o) ↔ s.Has (.object o) := by
  simp [HasValue, Value.nodes]

theorem hasValue_reference {i : SlotId} {container : Option ObjectId} {name : Option String} :
    s.HasValue (.reference ⟨i, container, name⟩) ↔
      s.Has (.slot i) ∧ ∀ o, container = some o → s.Has (.object o) := by
  simp [HasValue, Value.nodes]

theorem hasValue_of_nodes (h : v.nodes = []) : s.HasValue v := by
  intro node hnode
  rw [h] at hnode
  cases hnode

theorem HasValue.mono (hv : s.HasValue v) (h : ∀ node, s.Has node → s'.Has node) : s'.HasValue v :=
  fun node hnode => h node (hv node hnode)

namespace Closed

section
variable (hs : s.Closed)
include hs

/-! What can be found. -/

theorem has_of_mem_roots {node : Node} (h : node ∈ s.roots) : s.Has node := by
  simp only [roots, List.mem_append, List.mem_flatMap, List.mem_cons, List.not_mem_nil, or_false,
    List.mem_map] at h
  rcases h with ((hheld | ⟨frame, hframe, rfl | rfl⟩) | rfl | rfl) | ⟨c, hc, rfl⟩
  · exact hs.held node hheld
  · exact (hs.frames frame hframe).1
  · exact (hs.frames frame hframe).2
  · exact hs.global
  · exact hs.globalThis
  · obtain ⟨i, hi, rfl⟩ := List.mem_map.1 (List.mem_filter.1 hc).1
    exact List.mem_range.1 hi

theorem hasValue_slot (i : SlotId) : s.HasValue (s.slot i).value :=
  fun node hnode => hs.links (.slot i) node hnode

theorem hasValue_deref (hv : s.HasValue v) : s.HasValue (s.deref v) := by
  have hfollow (n : Nat) (v : Value) (hv : s.HasValue v) : s.HasValue (s.followUpTo n v) := by
    induction n generalizing v with
    | zero =>
      cases v <;> exact hv
    | succ n ih =>
      cases v with
      | reference r => exact ih _ (hs.hasValue_slot r.slot)
      | _ => exact hv
  exact hfollow _ v hv

theorem has_payload {o : ObjectId} {node : Node} (h : node ∈ (s.object o).payload.nodes) :
    s.Has node := by
  apply hs.links (.object o)
  simp [heldBy, h]

theorem has_wrapped {o : ObjectId} {c : ClassId} (h : (s.object o).wrapped? = some c) :
    s.Has (.class c) := by
  apply hs.has_payload (o := o)
  unfold Object.wrapped? at h
  split at h
  · rename_i hpayload
    cases h
    simp [hpayload, Payload.nodes]
  · cases h

theorem has_own {o : ObjectId} {name : String} {i : SlotId} (h : s.own? o name = some i) :
    s.Has (.slot i) := by
  apply hs.links (.object o)
  have hmem := (Table.mem_entries_iff _ name i).2 h
  simp only [heldBy, List.mem_append, List.mem_map]
  exact .inr ⟨(name, i), hmem, rfl⟩

theorem has_ofMethod {c : ClassId} {name : String} {f : ObjectId}
    (h : (s.classInfo c).methods.find? name = some f) : s.Has (.object f) := by
  apply hs.links (.class c)
  exact List.mem_map.2 ⟨(name, f), (Table.mem_entries_iff _ name f).2 h, rfl⟩

theorem has_method {c : ClassId} {name : String} {f : ObjectId} (h : s.method? c name = some f) :
    s.Has (.object f) := by
  obtain ⟨k, -, hk⟩ := List.exists_of_findSome?_eq_some h
  exact hs.has_ofMethod hk

theorem has_objectMethod {o f : ObjectId} {name : String} (h : s.objectMethod? o name = some f) :
    s.Has (.object f) := by
  obtain ⟨c, -, hc⟩ := Option.bind_eq_some_iff.1 h
  exact hs.has_method hc

theorem has_thisObject : s.Has (.object s.thisObject) := by
  unfold thisObject
  split
  · rename_i frame rest hframes
    exact (hs.frames frame (by simp [hframes])).1
  · exact hs.globalThis

theorem has_currentScope : s.Has (.object s.currentScope) := by
  unfold currentScope
  split
  · rename_i frame rest hframes
    exact (hs.frames frame (by simp [hframes])).2
  · exact hs.global

theorem hasValue_constant {o : ObjectId} {f : NativeFunction}
    (hf : (s.object o).callable? = some (.native f)) (hcallback : f.callback = .host (.constant v)) :
    s.HasValue v := by
  intro node hnode
  apply hs.has_payload (o := o)
  unfold Object.callable? at hf
  split at hf
  · rename_i hpayload
    cases hf
    simpa [hpayload, Payload.nodes, hcallback] using hnode
  · cases hf

/-! Changes of the state. -/

/-- A closed state that grows stays closed if all that is new in it refers to what exists. -/
theorem widen (hobjects : s.objects.size ≤ s'.objects.size) (hslots : s.slots.size ≤ s'.slots.size)
    (hclasses : s.classes.size ≤ s'.classes.size)
    (hlinks : ∀ node, ∀ child ∈ s'.heldBy node, child ∈ s.heldBy node ∨ s.Has child)
    (hglobal : s'.global = s.global) (hthis : s'.globalThis = s.globalThis)
    (hframes : ∀ frame ∈ s'.frames, frame ∈ s.frames ∨
      s.Has (.object frame.this) ∧ s.Has (.object frame.scope))
    (hheld : ∀ node ∈ s'.held, node ∈ s.held ∨ s.Has node) : s'.Closed := by
  have hhas node (h : s.Has node) : s'.Has node := has_of_sizes h hobjects hslots hclasses
  constructor
  · exact fun node hnode => hhas _ ((hheld node hnode).elim (hs.held node) id)
  · intro frame hframe
    obtain ⟨hframe, hscope⟩ := (hframes frame hframe).elim (hs.frames frame) id
    exact ⟨hhas _ hframe, hhas _ hscope⟩
  · exact hglobal ▸ hhas _ hs.global
  · exact hthis ▸ hhas _ hs.globalThis
  · exact fun node child hchild => hhas _ ((hlinks node child hchild).elim (hs.links node child) id)

/-- What is outside of the heap changes. -/
theorem outside (h : s.SameHeap s')
    (hframes : ∀ frame ∈ s'.frames, frame ∈ s.frames ∨
      s.Has (.object frame.this) ∧ s.Has (.object frame.scope))
    (hheld : ∀ node ∈ s'.held, node ∈ s.held ∨ s.Has node) : s'.Closed := by
  obtain ⟨frames, output, errorOutput, held, rfl⟩ := h
  exact hs.widen (Nat.le_refl _) (Nat.le_refl _) (Nat.le_refl _) (fun _ _ => .inl) rfl rfl hframes
    hheld

theorem addObject {object : Object} (hmembers : object.members = {})
    (hclass : ∀ c, object.classId = some c → s.Has (.class c))
    (hpayload : ∀ node ∈ object.payload.nodes, s.Has node) : (s.addObject object).2.Closed := by
  refine hs.widen (by simp [State.addObject]) (Nat.le_refl _) (Nat.le_refl _) ?_ rfl rfl
    (fun _ => .inl) fun _ => .inl
  intro node child hchild
  cases node with
  | object o =>
    unfold heldBy at hchild ⊢
    dsimp only at hchild ⊢
    rw [object_addObject] at hchild
    split at hchild
    · right
      simp only [hmembers, List.mem_append, List.mem_map, Option.mem_toList] at hchild
      rcases hchild with (⟨c, hc, rfl⟩ | hnode) | ⟨entry, hentry, -⟩
      · exact hclass c hc
      · exact hpayload child hnode
      · cases hentry
    · exact .inl hchild
  | slot i => exact .inl hchild
  | «class» c => exact .inl hchild

theorem addSlot {slot : Slot} (hv : s.HasValue slot.value) : (s.addSlot slot).2.Closed := by
  refine hs.widen (Nat.le_refl _) (by simp [State.addSlot]) (Nat.le_refl _) ?_ rfl rfl
    (fun _ => .inl) fun _ => .inl
  intro node child hchild
  cases node with
  | object o => exact .inl hchild
  | slot i =>
    unfold heldBy at hchild ⊢
    dsimp only at hchild ⊢
    rw [slot_addSlot] at hchild
    split at hchild
    · exact .inr (hv child hchild)
    · exact .inl hchild
  | «class» c => exact .inl hchild

theorem bindMember {i : SlotId} (hi : s.Has (.slot i)) (o : ObjectId) (name : String) :
    (s.bindMember o name i).Closed := by
  refine hs.widen (by simp [State.bindMember]) (Nat.le_refl _) (Nat.le_refl _) ?_ rfl rfl
    (fun _ => .inl) fun _ => .inl
  intro node child hchild
  cases node with
  | object o' =>
    simp only [heldBy, List.mem_append, List.mem_map, classId_bindMember,
      payload_bindMember] at hchild ⊢
    rcases hchild with hold | ⟨⟨name', j⟩, hj, rfl⟩
    · exact .inl (.inl hold)
    · have hown := (Table.mem_entries_iff _ name' j).1 hj
      change (s.bindMember o name i).own? o' name' = some j at hown
      rw [own?_bindMember] at hown
      split at hown
      · cases hown
        exact .inr hi
      · exact .inl (.inr ⟨(name', j), (Table.mem_entries_iff _ name' j).2 hown, rfl⟩)
  | slot i => exact .inl hchild
  | «class» c => exact .inl hchild

theorem allocate (hv : s.HasValue v) (o : ObjectId) (name : String) (readOnly : Bool) :
    (s.allocate o name v readOnly).2.Closed := by
  have hslot : (s.addSlot ⟨v, readOnly, some name⟩).2.Closed := hs.addSlot hv
  exact hslot.bindMember (by simp [Has, State.addSlot]) o name

theorem writeSlot (hv : s.HasValue v) (i : SlotId) : (s.writeSlot i v).Closed := by
  refine hs.widen (Nat.le_refl _) (by simp [State.writeSlot]) (Nat.le_refl _) ?_ rfl rfl
    (fun _ => .inl) fun _ => .inl
  intro node child hchild
  cases node with
  | object o => exact .inl hchild
  | slot j =>
    unfold heldBy at hchild ⊢
    dsimp only at hchild ⊢
    rw [slot_writeSlot] at hchild
    split at hchild
    · exact .inr (hv child hchild)
    · exact .inl hchild
  | «class» c => exact .inl hchild

theorem setHostData (o : ObjectId) (data : HostData) : (s.setHostData o data).Closed := by
  refine hs.widen (by simp [State.setHostData]) (Nat.le_refl _) (Nat.le_refl _) ?_ rfl rfl
    (fun _ => .inl) fun _ => .inl
  intro node child hchild
  left
  cases node with
  | object o' =>
    unfold heldBy State.setHostData at hchild
    dsimp only at hchild
    rw [object_modify] at hchild
    unfold heldBy
    dsimp only
    split at hchild
    · simp only [Payload.nodes, List.append_nil, List.mem_append] at hchild ⊢
      rcases hchild with hclass | hmember
      · exact .inl (.inl hclass)
      · exact .inr hmember
    · exact hchild
  | slot i => exact hchild
  | «class» c => exact hchild

theorem bindMethod {f : ObjectId} (hf : s.Has (.object f)) (c : ClassId) (name : String) :
    (s.bindMethod c name f).Closed := by
  refine hs.widen (Nat.le_refl _) (Nat.le_refl _) (by simp [State.bindMethod]) ?_ rfl rfl
    (fun _ => .inl) fun _ => .inl
  intro node child hchild
  cases node with
  | object o => exact .inl hchild
  | slot i => exact .inl hchild
  | «class» c' =>
    obtain ⟨⟨name', f'⟩, hf', rfl⟩ := List.mem_map.1 hchild
    rw [Table.mem_entries_iff, methods_bindMethod] at hf'
    split at hf'
    · rw [Table.find?_insert] at hf'
      split at hf'
      · cases hf'
        exact .inr hf
      · exact .inl (List.mem_map.2 ⟨(name', f'), (Table.mem_entries_iff _ name' f').2 hf', rfl⟩)
    · exact .inl (List.mem_map.2 ⟨(name', f'), (Table.mem_entries_iff _ name' f').2 hf', rfl⟩)

/-- A class without virtual members holds nothing. -/
theorem addClass {c : Class} (hc : c.methods = {}) : (s.addClass c).2.Closed := by
  refine hs.widen (Nat.le_refl _) (Nat.le_refl _) (by simp [State.addClass]) ?_ rfl rfl
    (fun _ => .inl) fun _ => .inl
  intro node child hchild
  left
  cases node with
  | object o => exact hchild
  | slot i => exact hchild
  | «class» c' =>
    unfold heldBy at hchild ⊢
    dsimp only at hchild ⊢
    rw [classInfo_addClass] at hchild
    split at hchild
    · rw [hc] at hchild
      cases hchild
    · exact hchild

theorem settles (h : s.Settles s') : s'.Closed := by
  have hsize := h.size
  have hinfo := h.classInfo
  obtain ⟨classes, mortal, rfl⟩ := h.same
  refine hs.widen (Nat.le_refl _) (Nat.le_refl _) (Nat.le_of_eq hsize.symm) ?_ rfl rfl
    (fun _ => .inl) fun _ => .inl
  intro node child hchild
  left
  cases node with
  | object o => exact hchild
  | slot i => exact hchild
  | «class» c =>
    rw [heldBy, hinfo c] at hchild
    exact hchild

end

end Closed

end Scripting.State
