import Scripting.Proofs.Discipline.Run

/-!
Objects that nothing leads to, and what happens to their members.

No value, no `this` and no virtual member leads to a hidden object, so its members change only where
names are bound in the current scope while it is that scope. Main statements: outside of it everything
leaves its members as they are (`outside_lawful`), and also within it all changes do, except for binding
names in the current scope (`hidden_core`).
-/

namespace Scripting

/-- The value does not lead to an object. -/
def Value.Avoids (p : ObjectId) : Value → Prop
  | .object o => o ≠ p
  | .reference r => r.container ≠ some p
  | _ => True

/-! Tables in which some names were bound again. -/

inductive Table.Rebound {α : Type} (names : List String) (t : Table α) : Table α → Prop where
  | same : Rebound names t t
  | bind {t' : Table α} {name : String} (h : Rebound names t t') (hname : name ∈ names) (a : α) :
      Rebound names t (t'.insert name a)

namespace Table.Rebound

variable {α : Type} {names : List String} {t t' t'' : Table α}

theorem trans (h : Rebound names t t') (h' : Rebound names t' t'') : Rebound names t t'' := by
  induction h' with
  | same => exact h
  | bind _ hname a ih => exact ih.bind hname a

theorem mono {names' : List String} (h : Rebound names t t') (hnames : names ⊆ names') :
    Rebound names' t t' := by
  induction h with
  | same => exact .same
  | bind _ hname a ih => exact ih.bind (hnames hname) a

/-- Where no name may be bound, nothing changes. -/
theorem eq_self (h : Rebound [] t t') : t' = t := by
  cases h with
  | same => rfl
  | bind _ hname _ => cases hname

/-- Other names keep what they are bound to. -/
theorem find?_eq (h : Rebound names t t') {name : String} (hname : name ∉ names) :
    t'.find? name = t.find? name := by
  induction h with
  | same => rfl
  | bind _ hbound a ih =>
    rw [find?_insert, if_neg, ih]
    rintro rfl
    exact hname hbound

end Table.Rebound

namespace State

/-- Nothing that scripts can get hold of leads to an object. -/
structure Hides (p : ObjectId) (s : State) : Prop where
  size : p.index < s.objects.size
  global : s.global ≠ p
  globalThis : s.globalThis ≠ p
  this : ∀ frame ∈ s.frames, frame.this ≠ p
  slots : ∀ i, (s.slot i).value.Avoids p
  methods : ∀ c name f, (s.classInfo c).methods.find? name = some f → f ≠ p
  constants : ∀ o f v, (s.object o).callable? = some (.native f) →
    f.callback = .host (.constant v) → v.Avoids p

/-- The frames stay, and of the names of an object only some are bound again. -/
structure Rebinds (names : List String) (p : ObjectId) (s s' : State) : Prop where
  frames : s'.frames = s.frames
  global : s'.global = s.global
  members : Table.Rebound names (s.object p).members (s'.object p).members

variable {p : ObjectId} {s s' : State} {names : List String}

theorem Rebinds.refl (s : State) : Rebinds names p s s :=
  ⟨rfl, rfl, .same⟩

theorem Rebinds.trans {s'' : State} (h : Rebinds names p s s') (h' : Rebinds names p s' s'') :
    Rebinds names p s s'' :=
  ⟨h'.frames.trans h.frames, h'.global.trans h.global, h.members.trans h'.members⟩

theorem Rebinds.mono {names' : List String} (h : Rebinds names p s s') (hnames : names ⊆ names') :
    Rebinds names' p s s' :=
  ⟨h.frames, h.global, h.members.mono hnames⟩

theorem currentScope_congr (hframes : s'.frames = s.frames) (hglobal : s'.global = s.global) :
    s'.currentScope = s.currentScope := by
  rw [currentScope, currentScope, hframes, hglobal]

/-! The lives of classes. -/

theorem methods_settleUnreached (counts : Array Nat) (s : State) (c c' : ClassId) :
    ((settleUnreached counts s c).classInfo c').methods = (s.classInfo c').methods := by
  unfold settleUnreached
  dsimp only
  split
  · simp only [endLife, classInfo, Array.getD_eq_getD_getElem?, Array.getElem?_modify]
    split
    · cases s.classes[c'.index]? <;> rfl
    · rfl
  · rfl

theorem methods_settleAmong (s : State) (classes : List ClassId) (c : ClassId) :
    ((s.settleAmong classes).classInfo c).methods = (s.classInfo c).methods := by
  have hfold (counts : Array Nat) (ended : List ClassId) (s : State) :
      ((ended.foldl (settleUnreached counts) s).classInfo c).methods = (s.classInfo c).methods := by
    induction ended generalizing s with
    | nil => rfl
    | cons e rest ih => rw [List.foldl_cons, ih, methods_settleUnreached]
  unfold settleAmong
  dsimp only
  split
  · rfl
  · split
    · rfl
    · exact hfold _ _ s

namespace Hides

variable (hs : s.Hides p)
include hs

/-- What is hidden depends on the heap only, and on what `this` stands for. -/
theorem of_heap (hclasses : ∀ c, (s'.classInfo c).methods = (s.classInfo c).methods)
    (hobjects : s'.objects = s.objects) (hslots : s'.slots = s.slots)
    (hglobal : s'.global = s.global) (hglobalThis : s'.globalThis = s.globalThis)
    (hframes : ∀ frame ∈ s'.frames, frame.this ≠ p) : s'.Hides p where
  size := hobjects ▸ hs.size
  global := hglobal ▸ hs.global
  globalThis := hglobalThis ▸ hs.globalThis
  this := hframes
  slots i := by
    rw [slot, hslots]
    exact hs.slots i
  methods c name f hf := by
    rw [hclasses] at hf
    exact hs.methods c name f hf
  constants o f v hf := by
    rw [object, hobjects] at hf
    exact hs.constants o f v hf

theorem new_ne : (⟨s.objects.size⟩ : ObjectId) ≠ p := by
  rintro rfl
  exact absurd hs.size (Nat.lt_irrefl _)

theorem members_addObject (object : Object) :
    ((s.addObject object).2.object p).members = (s.object p).members := by
  rw [object_addObject, if_neg (Nat.ne_of_lt hs.size)]

/-- A new object supplies no value that leads to the hidden one. -/
theorem addObject {object : Object}
    (h : ∀ f v, object.callable? = some (.native f) → f.callback = .host (.constant v) →
      v.Avoids p) : (s.addObject object).2.Hides p where
  size := by
    have hsize := hs.size
    simp only [State.addObject, Array.size_push]
    omega
  global := hs.global
  globalThis := hs.globalThis
  this := hs.this
  slots := hs.slots
  methods := hs.methods
  constants o f v hf := by
    rw [object_addObject] at hf
    split at hf
    · exact h f v hf
    · exact hs.constants o f v hf

theorem addSlot {slot : Slot} (h : slot.value.Avoids p) : (s.addSlot slot).2.Hides p where
  size := hs.size
  global := hs.global
  globalThis := hs.globalThis
  this := hs.this
  slots i := by
    rw [slot_addSlot]
    split
    · exact h
    · exact hs.slots i
  methods := hs.methods
  constants := hs.constants

/-- Only payloads supply values. -/
theorem of_payloads (hobjects : ∀ o, (s'.object o).payload = (s.object o).payload)
    (hsize : s'.objects.size = s.objects.size) (hclasses : s'.classes = s.classes)
    (hslots : s'.slots = s.slots) (hglobal : s'.global = s.global)
    (hglobalThis : s'.globalThis = s.globalThis) (hframes : s'.frames = s.frames) :
    s'.Hides p where
  size := hsize ▸ hs.size
  global := hglobal ▸ hs.global
  globalThis := hglobalThis ▸ hs.globalThis
  this := hframes ▸ hs.this
  slots i := by
    rw [slot, hslots]
    exact hs.slots i
  methods c name f hf := by
    rw [classInfo, hclasses] at hf
    exact hs.methods c name f hf
  constants o f v hf := by
    rw [Object.callable?, hobjects] at hf
    exact hs.constants o f v hf

theorem allocate {v : Value} (hv : v.Avoids p) (o : ObjectId) (name : String) (readOnly : Bool) :
    (s.allocate o name v readOnly).2.Hides p := by
  have hslot : (s.addSlot ⟨v, readOnly, some name⟩).2.Hides p := hs.addSlot hv
  refine hslot.of_payloads (fun o' => payload_bindMember _ o o' name _) ?_ rfl rfl rfl rfl rfl
  exact Array.size_modify

theorem writeSlot {v : Value} (hv : v.Avoids p) (i : SlotId) : (s.writeSlot i v).Hides p where
  size := hs.size
  global := hs.global
  globalThis := hs.globalThis
  this := hs.this
  slots j := by
    rw [slot_writeSlot]
    split
    · exact hv
    · exact hs.slots j
  methods := hs.methods
  constants := hs.constants

theorem setHostData (o : ObjectId) (data : HostData) : (s.setHostData o data).Hides p where
  size := by
    have hsize := hs.size
    simpa [State.setHostData] using hsize
  global := hs.global
  globalThis := hs.globalThis
  this := hs.this
  slots := hs.slots
  methods := hs.methods
  constants o' f v hf := by
    rw [State.setHostData, object_modify] at hf
    split at hf
    · cases hf
    · exact hs.constants o' f v hf

theorem settle (classes : List ClassId) : (s.settleAmong classes).Hides p := by
  have hmethods := s.methods_settleAmong classes
  obtain ⟨_, _, h⟩ := s.settleAmong_sameButLives classes
  rw [h] at hmethods ⊢
  exact hs.of_heap hmethods rfl rfl rfl rfl hs.this

theorem pushFrame {frame : Frame} (h : frame.this ≠ p) :
    ({ s with frames := frame :: s.frames } : State).Hides p :=
  hs.of_heap (fun _ => rfl) rfl rfl rfl rfl (List.forall_mem_cons.2 ⟨h, hs.this⟩)

theorem popFrame : s.popFrame.Hides p :=
  hs.of_heap (fun _ => rfl) rfl rfl rfl rfl fun frame h => hs.this frame (List.mem_of_mem_tail h)

theorem thisObject : s.thisObject ≠ p := by
  unfold State.thisObject
  split
  · rename_i frame rest hframes
    exact hs.this frame (by simp [hframes])
  · exact hs.globalThis

theorem scope (parent : Option ObjectId) : (s.addObject { payload := .scope parent }).2.Hides p :=
  hs.addObject nofun

theorem pushBlock : s.pushBlock.Hides p :=
  (hs.scope (some s.currentScope)).pushFrame hs.thisObject

theorem pushCall (name : String) {container : Option ObjectId}
    (h : ∀ o, container = some o → o ≠ p) : (s.pushCall name container).Hides p := by
  apply (hs.scope none).pushFrame
  cases container with
  | none => exact hs.globalThis
  | some o => exact h o rfl

theorem pushGlobal (name : String) : (s.pushGlobal name).Hides p :=
  hs.pushFrame hs.globalThis

theorem deref {v : Value} (hv : v.Avoids p) : (s.deref v).Avoids p := by
  unfold State.deref
  generalize s.slots.size + 1 = n
  induction n generalizing v with
  | zero => cases v <;> exact hv
  | succ n ih =>
    cases v with
    | reference r => exact ih (hs.slots r.slot)
    | _ => exact hv

theorem objectMethod? {o f : ObjectId} {name : String} (h : s.objectMethod? o name = some f) :
    f ≠ p := by
  obtain ⟨k, hk⟩ := exists_method_of_objectMethod? h
  exact hs.methods k name f hk

end Hides

end State

namespace Discipline

open State

/-- An object stays hidden, and only some names are bound in it again; while `outside` holds, it is not
the current scope. -/
def hidden (p : ObjectId) (names : List String) (outside : Prop) : Discipline where
  inv s := s.Hides p ∧ (outside → s.currentScope ≠ p)
  leads s s' := s.Rebinds names p s'
  good _ v := v.Avoids p
  stored _ v := v.Avoids p
  raised _ e := e.value.Avoids p
  expr _ := True
  stmt _ := True
  host f := ∀ v, f = .constant v → v.Avoids p

variable {p : ObjectId} {names : List String} {outside : Prop} {s s' s₁ : State}

theorem hidden_step (hs : (hidden p names outside).inv s) (hs' : s'.Hides p)
    (h : s.Rebinds names p s') : (hidden p names outside).Step s s' := by
  refine ⟨⟨hs', fun ho => ?_⟩, h⟩
  rw [currentScope_congr h.frames h.global]
  exact hs.2 ho

/-- A new frame, in which the hidden object is as it was. -/
structure Enters (p : ObjectId) (s s₁ : State) : Prop where
  hides : s₁.Hides p
  scope : s₁.currentScope ≠ p
  frames : s₁.frames.tail = s.frames
  global : s₁.global = s.global
  members : (s₁.object p).members = (s.object p).members

/-- What happens in a frame counts from where the frame was entered. -/
theorem Enters.back (h : Enters p s s₁) (hl : s₁.Rebinds names p s') :
    s.Rebinds names p s'.popFrame where
  frames := (congrArg List.tail hl.frames).trans h.frames
  global := hl.global.trans h.global
  members := h.members ▸ hl.members

/-- In the new frame the hidden object is not the current scope. -/
theorem Enters.inv (h : Enters p s s₁) : (hidden p names outside).twin.inv ⟨s₁, s₁⟩ :=
  ⟨s₁, rfl, h.hides, fun _ => h.scope⟩

theorem Enters.pushes (hs : (hidden p names outside).inv s) (h : Enters p s s₁) :
    (hidden p names outside).Pushes s s₁ where
  inv := ⟨h.hides, fun _ => h.scope⟩
  good _ hv := hv
  stored _ hv := hv
  back _ hs' hl := hidden_step hs hs'.1.popFrame (h.back hl)

section
variable (hs : s.Hides p)
include hs

theorem enters_pushBlock : Enters p s s.pushBlock :=
  ⟨hs.pushBlock, hs.new_ne, rfl, rfl, hs.members_addObject _⟩

theorem enters_pushCall (name : String) {container : Option ObjectId}
    (h : ∀ o, container = some o → o ≠ p) : Enters p s (s.pushCall name container) :=
  ⟨hs.pushCall name h, hs.new_ne, rfl, rfl, hs.members_addObject _⟩

theorem enters_pushGlobal (name : String) : Enters p s (s.pushGlobal name) :=
  ⟨hs.pushGlobal name, hs.global, rfl, rfl, rfl⟩

end

/-- Binding names in another object leaves the members of the hidden one. -/
theorem rebinds_allocate {o : ObjectId} (ho : o ≠ p) (name : String) (v : Value) (readOnly : Bool) :
    s.Rebinds names p (s.allocate o name v readOnly).2 := by
  refine ⟨rfl, rfl, ?_⟩
  rw [object_allocate_of_ne]
  · exact .same
  · exact ho.symm

/-- Binding a name in the current scope binds it in the hidden object at most. -/
theorem rebinds_declare {name : String} (hname : name ∈ names) (v : Value) (readOnly : Bool) :
    s.Rebinds names p (s.allocate s.currentScope name v readOnly).2 := by
  by_cases hp : s.currentScope = p
  · refine ⟨rfl, rfl, ?_⟩
    change Table.Rebound names _ (((s.addSlot _).2.bindMember s.currentScope name _).object p).members
    rw [bindMember, object_modify]
    split
    · exact .bind .same hname _
    · exact .same
  · exact rebinds_allocate hp name v readOnly

theorem hidden_core (p : ObjectId) (names : List String) (outside : Prop) :
    (hidden p names outside).Core where
  refl s := .refl s
  trans h h' := h.trans h'
  good_mono _ hv := hv
  stored_mono _ hv := hv
  raised_mono _ he := he
  good_of_stored h := h
  literal := by
    intro v s h
    cases v with
    | object o => exact h.elim
    | reference r => exact h.elim
    | _ => trivial
  deref hs hv := hs.1.deref hv
  this hs := hs.1.thisObject
  global hs := hs.1.global
  container := by
    rintro s r o hr ho rfl
    exact hr ho
  read hs _ := hs.1.slots _
  raise _ h := h
  raised_value h := h
  make := by
    intro s object hs h _
    have hnew : (s.addObject object).2.Hides p :=
      hs.1.addObject fun f v hf hcallback => absurd hcallback (h.callback_ne_host f _ hf)
    have hmembers := hs.1.members_addObject object
    exact ⟨hidden_step hs hnew ⟨rfl, rfl, hmembers ▸ .same⟩, hs.1.new_ne⟩
  extend := by
    intro s o v name readOnly hs ho hv
    refine ⟨hidden_step hs (hs.1.allocate hv o name readOnly) (rebinds_allocate ho _ _ _), ?_⟩
    rintro ⟨⟩
    exact ho rfl
  method := by
    intro s o name f hs ho hf
    have hslot : (s.addSlot ⟨.object f, true, some name⟩).2.Hides p :=
      hs.1.addSlot (hs.1.objectMethod? hf)
    refine ⟨hidden_step hs hslot ⟨rfl, rfl, .same⟩, ?_⟩
    rintro ⟨⟩
    exact ho rfl
  own := by
    rintro s o name i _ ho _ ⟨⟩
    exact ho rfl
  found := by
    intro s name scope i hs _ ho
    dsimp only at ho
    split at ho
    · cases ho
      exact hs.1.global rfl
    · cases ho
  write hs _ _ hv := hidden_step hs (hs.1.writeSlot hv _) ⟨rfl, rfl, .same⟩
  output _ hs :=
    hidden_step hs (hs.1.of_heap (fun _ => rfl) rfl rfl rfl rfl hs.1.this) ⟨rfl, rfl, .same⟩
  errorOutput _ hs :=
    hidden_step hs (hs.1.of_heap (fun _ => rfl) rfl rfl rfl rfl hs.1.this) ⟨rfl, rfl, .same⟩
  hold hs _ :=
    hidden_step hs (hs.1.of_heap (fun _ => rfl) rfl rfl rfl rfl hs.1.this) ⟨rfl, rfl, .same⟩
  free _ hs _ :=
    hidden_step hs (hs.1.of_heap (fun _ => rfl) rfl rfl rfl rfl hs.1.this) ⟨rfl, rfl, .same⟩
  settle := by
    intro s classes hs
    apply hidden_step hs (hs.1.settle classes)
    obtain ⟨_, _, h⟩ := s.settleAmong_sameButLives classes
    rw [h]
    exact ⟨rfl, rfl, .same⟩
  pushBlock hs := (enters_pushBlock hs.1).pushes hs
  good_pop h := h
  stored_pop h := h
  raised_pop h := h
  expr_parts {e} _ := by cases e <;> simp [Expr.Parts, hidden]
  stmt_parts {statement} _ := by cases statement <;> simp [Stmt.Parts, hidden]
  script _ _ _ _ := trivial
  program _ _ _ _ _ := trivial
  hostOf := by
    rintro s o f _ hs hf hcallback v rfl
    exact hs.1.constants o f v hf hcallback

/-- Outside of the hidden object nothing changes its members. -/
theorem outside_lawful (p : ObjectId) : (hidden p [] True).Lawful where
  toCore := hidden_core p [] True
  allocate := by
    intro s o v name readOnly hs ho hv
    have hne : o ≠ p := by
      rcases ho with rfl | ho
      · exact hs.2 trivial
      · exact ho
    refine ⟨hidden_step hs (hs.1.allocate hv o name readOnly) (rebinds_allocate hne _ _ _), ?_⟩
    rintro _ ⟨⟩
    exact hne rfl
  pushCall name hs h := (enters_pushCall hs.1 name h).pushes hs
  pushGlobal name hs := (enters_pushGlobal hs.1 name).pushes hs

theorem outside_hosts (p : ObjectId) : (hidden p [] True).twin.Hosts := by
  apply (outside_lawful p).hosts
  · intro s o data hs
    refine hidden_step hs (hs.1.setHostData o data) ⟨rfl, rfl, ?_⟩
    rw [State.setHostData, object_modify]
    split <;> exact .same
  · exact fun h _ => h _ rfl
  · exact fun _ _ => trivial

end Discipline

end Scripting
