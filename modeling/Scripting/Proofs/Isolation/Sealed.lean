import Scripting.Proofs.Discipline.Reach
import Scripting.Proofs.Initial

/-!
Sealed states: no script can get hold of a scope.

In a sealed state no slot, no virtual member and no `this` leads to a scope, no slot holds a reference,
and every slot belongs to at most one name of one object. So the only way to the local names of a frame
is the chain of scopes that starts in the frame itself. Main statement: scripts reach sealed states only
(`sealed_lawful`, `sealed_install`).
-/

namespace Scripting

variable {v : Value}

def Payload.isScope : Payload → Bool
  | .scope _ => true
  | _ => false

namespace State

/-- An object that holds the local names of a frame. -/
def IsScope (s : State) (o : ObjectId) : Prop :=
  (s.object o).payload.isScope = true

/-- An object that scripts can get hold of: it exists and is not a scope. -/
def Public (s : State) (o : ObjectId) : Prop :=
  o.index < s.objects.size ∧ ¬s.IsScope o

/-- A value that can be stored: it is no reference and leads to no scope. -/
def Holds (s : State) : Value → Prop
  | .object o => s.Public o
  | .reference _ => False
  | _ => True

/-- A value that an expression can give: a reference was not found in a scope, as far as it says. -/
def Reaches (s : State) : Value → Prop
  | .reference r => ∀ o, r.container = some o → s.Public o
  | v => s.Holds v

structure Sealed (s : State) : Prop where
  immortal : s.mortal = []
  global : s.Public s.global
  globalThis : s.Public s.globalThis
  this : ∀ frame ∈ s.frames, s.Public frame.this
  slots : ∀ i, s.Holds (s.slot i).value
  methods : ∀ c name f, (s.classInfo c).methods.find? name = some f → s.Public f
  natives : ∀ o f h, (s.object o).callable? = some (.native f) → f.callback ≠ .host h
  owned : ∀ o name i, s.own? o name = some i → i.index < s.slots.size
  owner : ∀ o o' name name' i, s.own? o name = some i → s.own? o' name' = some i →
    o = o' ∧ name = name'

/-- Objects are added and stay what they are. -/
structure Grows (s s' : State) : Prop where
  size : s.objects.size ≤ s'.objects.size
  payload : ∀ o, o.index < s.objects.size → (s'.object o).payload = (s.object o).payload

variable {s s' : State}

theorem Grows.refl (s : State) : s.Grows s :=
  ⟨Nat.le_refl _, fun _ _ => rfl⟩

theorem Grows.trans {s'' : State} (h : s.Grows s') (h' : s'.Grows s'') : s.Grows s'' where
  size := Nat.le_trans h.size h'.size
  payload o ho := by
    rw [h'.payload o (Nat.lt_of_lt_of_le ho h.size), h.payload o ho]

theorem Public.mono {o : ObjectId} (h : s.Grows s') (ho : s.Public o) : s'.Public o := by
  obtain ⟨hsize, hscope⟩ := ho
  refine ⟨Nat.lt_of_lt_of_le hsize h.size, ?_⟩
  rw [IsScope, h.payload o hsize]
  exact hscope

theorem Holds.mono (h : s.Grows s') (hv : s.Holds v) : s'.Holds v := by
  cases v with
  | object o => exact Public.mono h hv
  | reference r => exact hv.elim
  | _ => trivial

theorem Reaches.mono (h : s.Grows s') (hv : s.Reaches v) : s'.Reaches v := by
  cases v with
  | object o => exact Public.mono h hv
  | reference r => exact fun o ho => (hv o ho).mono h
  | _ => trivial

theorem Holds.isReference (hv : s.Holds v) : v.isReference = false := by
  cases v with
  | reference r => exact hv.elim
  | _ => rfl

theorem Holds.reaches (hv : s.Holds v) : s.Reaches v := by
  cases v with
  | reference r => exact hv.elim
  | _ => exact hv

theorem IsScope.lt_size {o : ObjectId} (h : s.IsScope o) : o.index < s.objects.size := by
  apply Nat.lt_of_not_le
  intro hle
  rw [IsScope, object_of_size_le s hle] at h
  cases h

/-- Only scopes have a parent. -/
theorem isScope_of_parentScope? {o parent : ObjectId}
    (h : (s.object o).parentScope? = some parent) : s.IsScope o := by
  unfold Object.parentScope? at h
  unfold IsScope
  split at h
  · rename_i hpayload
    rw [hpayload]
    rfl
  · cases h

/-! How objects are added and changed. -/

theorem grows_addObject (s : State) (object : Object) : s.Grows (s.addObject object).2 where
  size := by simp [addObject]
  payload o ho := by rw [object_addObject, if_neg (Nat.ne_of_lt ho)]

theorem grows_allocate (s : State) (o : ObjectId) (name : String) (v : Value) (readOnly : Bool) :
    s.Grows (s.allocate o name v readOnly).2 where
  size := by simp [allocate, addSlot, bindMember]
  payload o' _ := payload_allocate s o o' name v readOnly

theorem grows_of_objects (h : s'.objects = s.objects) : s.Grows s' where
  size := Nat.le_of_eq (congrArg Array.size h.symm)
  payload o _ := by rw [object, object, h]

theorem grows_pushCall (s : State) (name : String) (container : Option ObjectId) :
    s.Grows (s.pushCall name container) :=
  (grows_addObject s { payload := .scope none }).trans (grows_of_objects rfl)

theorem grows_pushBlock (s : State) : s.Grows s.pushBlock :=
  (grows_addObject s { payload := .scope (some s.currentScope) }).trans (grows_of_objects rfl)

namespace Sealed

variable (hs : s.Sealed)
include hs

/-- What is sealed depends on the heap only, and on what `this` stands for. -/
theorem of_heap (hclasses : s'.classes = s.classes) (hobjects : s'.objects = s.objects)
    (hslots : s'.slots = s.slots) (hglobal : s'.global = s.global)
    (hglobalThis : s'.globalThis = s.globalThis) (hmortal : s'.mortal = s.mortal)
    (hframes : ∀ frame ∈ s'.frames, s.Public frame.this) : s'.Sealed := by
  have hgrows : s.Grows s' := grows_of_objects hobjects
  have hobject : ∀ o, s'.object o = s.object o := fun o => by rw [object, object, hobjects]
  have hown : ∀ o name, s'.own? o name = s.own? o name := fun o name => by
    rw [own?, own?, hobject]
  refine ⟨hmortal ▸ hs.immortal, hglobal ▸ hs.global.mono hgrows,
    hglobalThis ▸ hs.globalThis.mono hgrows, fun frame h => (hframes frame h).mono hgrows,
    ?_, ?_, ?_, ?_, ?_⟩
  · intro i
    rw [slot, hslots]
    exact (hs.slots i).mono hgrows
  · intro c name f hf
    rw [classInfo, hclasses] at hf
    exact (hs.methods c name f hf).mono hgrows
  · intro o f h hf
    rw [hobject] at hf
    exact hs.natives o f h hf
  · intro o name i hi
    rw [hown] at hi
    rw [hslots]
    exact hs.owned o name i hi
  · intro o o' name name' i hi hi'
    rw [hown] at hi hi'
    exact hs.owner o o' name name' i hi hi'

/-- A new object has no members yet and is no function of the host. -/
theorem addObject {object : Object} (hmembers : ∀ name, object.members.find? name = none)
    (hnative : ∀ f h, object.callable? = some (.native f) → f.callback ≠ .host h) :
    (s.addObject object).2.Sealed := by
  have hgrows := grows_addObject s object
  have hown : ∀ o name i, (s.addObject object).2.own? o name = some i → s.own? o name = some i := by
    intro o name i hi
    rw [own?, object_addObject] at hi
    split at hi
    · rw [hmembers] at hi
      cases hi
    · exact hi
  refine ⟨hs.immortal, hs.global.mono hgrows, hs.globalThis.mono hgrows,
    fun frame h => (hs.this frame h).mono hgrows, fun i => (hs.slots i).mono hgrows,
    fun c name f hf => (hs.methods c name f hf).mono hgrows, ?_, ?_, ?_⟩
  · intro o f h hf
    rw [object_addObject] at hf
    split at hf
    · exact hnative f h hf
    · exact hs.natives o f h hf
  · exact fun o name i hi => hs.owned o name i (hown o name i hi)
  · exact fun o o' name name' i hi hi' =>
      hs.owner o o' name name' i (hown o name i hi) (hown o' name' i hi')

theorem addSlot {slot : Slot} (hslot : s.Holds slot.value) : (s.addSlot slot).2.Sealed := by
  have hgrows : s.Grows (s.addSlot slot).2 := grows_of_objects rfl
  refine ⟨hs.immortal, hs.global, hs.globalThis, hs.this, ?_, hs.methods, hs.natives, ?_, hs.owner⟩
  · intro i
    rw [slot_addSlot]
    split
    · exact hslot.mono hgrows
    · exact (hs.slots i).mono hgrows
  · intro o name i hi
    have := hs.owned o name i hi
    simp only [State.addSlot, Array.size_push]
    omega

/-- A slot that belongs to no name yet gets one. -/
theorem bindMember {i : SlotId} (hi : i.index < s.slots.size)
    (hfree : ∀ o name, s.own? o name ≠ some i) (o : ObjectId) (name : String) :
    (s.bindMember o name i).Sealed := by
  have hgrows : s.Grows (s.bindMember o name i) :=
    ⟨by simp [State.bindMember], fun o' _ => payload_bindMember s o o' name i⟩
  have hcallable : ∀ o', ((s.bindMember o name i).object o').callable? = (s.object o').callable? := by
    intro o'
    rw [Object.callable?, Object.callable?, payload_bindMember]
  refine ⟨hs.immortal, hs.global.mono hgrows, hs.globalThis.mono hgrows,
    fun frame h => (hs.this frame h).mono hgrows, fun j => (hs.slots j).mono hgrows,
    fun c other f hf => (hs.methods c other f hf).mono hgrows, ?_, ?_, ?_⟩
  · intro o' f h hf
    rw [hcallable] at hf
    exact hs.natives o' f h hf
  · intro o' name' j hj
    rw [own?_bindMember] at hj
    split at hj
    · cases hj
      exact hi
    · exact hs.owned o' name' j hj
  · intro o₁ o₂ name₁ name₂ j h₁ h₂
    rw [own?_bindMember] at h₁ h₂
    split at h₁ <;> split at h₂
    · rename_i hc₁ hc₂
      exact ⟨hc₁.1.trans hc₂.1.symm, hc₁.2.2.symm.trans hc₂.2.2⟩
    · cases h₁
      exact absurd h₂ (hfree o₂ name₂)
    · cases h₂
      exact absurd h₁ (hfree o₁ name₁)
    · exact hs.owner o₁ o₂ name₁ name₂ j h₁ h₂

theorem allocate (hv : s.Holds v) (o : ObjectId) (name : String) (readOnly : Bool) :
    (s.allocate o name v readOnly).2.Sealed := by
  have hnew : (s.addSlot ⟨v, readOnly, some name⟩).2.Sealed := hs.addSlot hv
  apply hnew.bindMember
  · simp [State.addSlot]
  · intro o' name' hown
    exact absurd (hs.owned o' name' _ hown) (Nat.lt_irrefl _)

theorem writeSlot (hv : s.Holds v) (i : SlotId) : (s.writeSlot i v).Sealed := by
  have hgrows : s.Grows (s.writeSlot i v) := grows_of_objects rfl
  refine ⟨hs.immortal, hs.global, hs.globalThis, hs.this, ?_, hs.methods, hs.natives, ?_, hs.owner⟩
  · intro j
    rw [slot_writeSlot]
    split
    · exact hv.mono hgrows
    · exact (hs.slots j).mono hgrows
  · intro o name j hj
    have := hs.owned o name j hj
    simpa [State.writeSlot] using this

/-- A function is shared among the instances of a class. -/
theorem bindMethod {f : ObjectId} (hf : s.Public f) (c : ClassId) (name : String) :
    (s.bindMethod c name f).Sealed := by
  refine ⟨hs.immortal, hs.global, hs.globalThis, hs.this, hs.slots, ?_, hs.natives, hs.owned,
    hs.owner⟩
  intro c' name' f' hf'
  rw [methods_bindMethod] at hf'
  split at hf'
  · rw [Table.find?_insert] at hf'
    split at hf'
    · cases hf'
      exact hf
    · exact hs.methods c' name' f' hf'
  · exact hs.methods c' name' f' hf'

theorem pushFrame {frame : Frame} (h : s.Public frame.this) :
    ({ s with frames := frame :: s.frames } : State).Sealed := by
  refine hs.of_heap rfl rfl rfl rfl rfl rfl ?_
  intro other hother
  rcases List.mem_cons.1 hother with rfl | hother
  · exact h
  · exact hs.this other hother

theorem popFrame : s.popFrame.Sealed :=
  hs.of_heap rfl rfl rfl rfl rfl rfl fun frame h => hs.this frame (List.mem_of_mem_tail h)

theorem scope (parent : Option ObjectId) : (s.addObject { payload := .scope parent }).2.Sealed := by
  apply hs.addObject (fun _ => rfl)
  intro f h hf
  cases hf

theorem thisObject : s.Public s.thisObject := by
  unfold State.thisObject
  split
  · rename_i frame rest hframes
    exact hs.this frame (by simp [hframes])
  · exact hs.globalThis

theorem pushCall (name : String) {container : Option ObjectId}
    (h : ∀ o, container = some o → s.Public o) : (s.pushCall name container).Sealed := by
  have hgrows := grows_addObject s { payload := .scope none }
  apply (hs.scope none).pushFrame
  cases container with
  | none => exact hs.globalThis.mono hgrows
  | some o => exact (h o rfl).mono hgrows

theorem pushBlock : s.pushBlock.Sealed :=
  (hs.scope (some s.currentScope)).pushFrame (hs.thisObject.mono (grows_addObject s _))

theorem deref (hv : s.Reaches v) : s.Holds (s.deref v) := by
  cases v with
  | reference r =>
    have hread := hs.slots r.slot
    rw [deref_reference s hread.isReference]
    exact hread
  | _ => exact hv

theorem objectMethod? {o f : ObjectId} {name : String} (h : s.objectMethod? o name = some f) :
    s.Public f := by
  obtain ⟨k, hk⟩ := exists_method_of_objectMethod? h
  exact hs.methods k name f hk

end Sealed

end State

namespace Discipline

open State

/-- States stay sealed, and no function of the host is called. -/
def sealed : Discipline where
  inv s := s.Sealed
  leads s s' := s.Grows s'
  good s v := s.Reaches v
  stored s v := s.Holds v
  raised s e := s.Holds e.value
  expr _ := True
  stmt _ := True
  host _ := False

variable {s s₁ : State}

theorem sealed_pushes (hs₁ : s₁.Sealed) (hgrows : s.Grows s₁) : sealed.Pushes s s₁ where
  inv := hs₁
  good _ hv := hv.mono hgrows
  stored _ hv := hv.mono hgrows
  back _ hs' hl := ⟨hs'.popFrame, hgrows.trans (hl.trans (grows_of_objects rfl))⟩

/-- A reference that was found in an object that scripts can get hold of. -/
theorem reaches_found {o : ObjectId} (ho : s.Public o) (i : SlotId) (name : Option String) :
    s.Reaches (.reference ⟨i, some o, name⟩) := by
  rintro _ ⟨⟩
  exact ho

/-- The objects that running code makes have no members yet, are no scopes and no functions of the
host. -/
theorem sealed_make {code : Stmt → Prop} {object : Object} (hs : s.Sealed)
    (h : s.Makes code object) :
    (s.addObject object).2.Sealed ∧ (s.addObject object).2.Public (s.addObject object).1 := by
  refine ⟨hs.addObject ?_ ?_, ?_, ?_⟩
  · cases h <;> exact fun _ => rfl
  · exact h.callback_ne_host
  · simp [State.addObject]
  · have hnew : (s.addObject object).2.object (s.addObject object).1 = object := by
      rw [object_addObject]
      exact if_pos rfl
    rw [IsScope, hnew]
    cases h <;> exact Bool.false_ne_true

theorem sealed_lawful : sealed.Lawful where
  refl s := .refl s
  trans h h' := h.trans h'
  good_mono h hv := hv.mono h
  stored_mono h hv := hv.mono h
  raised_mono h he := he.mono h
  good_of_stored h := h.reaches
  literal := by
    intro v s h
    cases v with
    | object o => exact h.elim
    | reference r => exact h.elim
    | _ => trivial
  deref hs hv := hs.deref hv
  this hs := hs.thisObject
  global hs := hs.global
  container hv ho := hv _ ho
  read hs _ := (hs.slots _).reaches
  raise _ h := h
  raised_value h := h
  make := by
    intro s object hs h _
    obtain ⟨hsealed, hpublic⟩ := sealed_make hs h
    exact ⟨⟨hsealed, grows_addObject s object⟩, hpublic⟩
  allocate := by
    intro s o v name readOnly hs _ hv
    have hgrows := grows_allocate s o name v readOnly
    exact ⟨⟨hs.allocate hv o name readOnly, hgrows⟩, fun ho => reaches_found (Public.mono hgrows ho) _ _⟩
  method := by
    intro s o name f hs ho hf
    have hgrows : s.Grows (s.addSlot ⟨.object f, true, some name⟩).2 := grows_of_objects rfl
    exact ⟨⟨hs.addSlot (hs.objectMethod? hf), hgrows⟩, reaches_found (Public.mono hgrows ho) _ _⟩
  own _ ho _ := reaches_found ho _ _
  found := by
    intro s name scope i hs _ o ho
    dsimp only at ho
    split at ho
    · cases ho
      exact hs.global
    · cases ho
  write hs _ _ hv := ⟨hs.writeSlot hv _, grows_of_objects rfl⟩
  output _ hs := ⟨hs.of_heap rfl rfl rfl rfl rfl rfl hs.this, grows_of_objects rfl⟩
  errorOutput _ hs := ⟨hs.of_heap rfl rfl rfl rfl rfl rfl hs.this, grows_of_objects rfl⟩
  hold hs _ := ⟨hs.of_heap rfl rfl rfl rfl rfl rfl hs.this, grows_of_objects rfl⟩
  free _ hs _ := ⟨hs.of_heap rfl rfl rfl rfl rfl rfl hs.this, grows_of_objects rfl⟩
  settle := by
    intro s classes hs
    rw [settleAmong_eq_self hs.immortal]
    exact ⟨hs, .refl s⟩
  pushCall := by
    intro s container name hs h
    exact sealed_pushes (hs.pushCall name h) (grows_pushCall s name container)
  pushGlobal _ hs := sealed_pushes (hs.pushFrame hs.globalThis) (grows_of_objects rfl)
  pushBlock hs := sealed_pushes hs.pushBlock (grows_pushBlock _)
  good_pop h := h
  stored_pop h := h
  raised_pop h := h
  expr_parts {e} _ := by cases e <;> simp [Expr.Parts, sealed]
  stmt_parts {statement} _ := by cases statement <;> simp [Stmt.Parts, sealed]
  script _ _ _ _ := trivial
  program _ _ _ _ _ := trivial
  hostOf hs hf hcallback := hs.natives _ _ _ hf hcallback

/-- No function of the host is installed, so none can go wrong. -/
theorem sealed_hosts : sealed.twin.Hosts := by
  intro i i' f this args σ _ hf
  exact hf.elim

end Discipline

namespace State

/-! The state of a new interpreter. -/

variable {s : State}

/-- A sealed state without any scopes. -/
def Unscoped (s : State) : Prop :=
  s.Sealed ∧ ∀ o, ¬s.IsScope o

theorem methods_initialClasses (i : Nat) : (initialClasses.getD i default).methods = ∅ := by
  match i with
  | 0 | 1 | 2 | 3 | 4 | 5 | 6 | 7 => rfl
  | _ + 8 => simp [initialClasses, Array.getD]; rfl

/-- An interpreter with two plain objects and nothing else. -/
theorem unscoped_of_plain {classId classId' : Option ClassId} (hmortal : s.mortal = [])
    (hclasses : s.classes = initialClasses) (hslots : s.slots = #[])
    (hobjects : s.objects = #[⟨classId, ∅, .none⟩, ⟨classId', ∅, .none⟩])
    (hglobal : s.global = ⟨0⟩) (hglobalThis : s.globalThis = ⟨1⟩)
    (hframes : s.frames = [⟨globalFrameName, ⟨1⟩, ⟨0⟩⟩]) : s.Unscoped := by
  have hobject : ∀ o, (s.object o).members = ∅ ∧ (s.object o).payload = .none := by
    rintro ⟨i⟩
    match i with
    | 0 | 1 => simp [object, hobjects]
    | _ + 2 => simp [object, hobjects]; exact ⟨rfl, rfl⟩
  have hscope : ∀ o, ¬s.IsScope o := by
    intro o
    rw [IsScope, (hobject o).2]
    exact Bool.false_ne_true
  have hpublic : ∀ i < 2, s.Public ⟨i⟩ := fun i hi => ⟨by simpa [hobjects] using hi, hscope _⟩
  have hown : ∀ o name, s.own? o name = none := by
    intro o name
    rw [own?, (hobject o).1]
    rfl
  refine ⟨⟨hmortal, hglobal ▸ hpublic 0 (by decide), hglobalThis ▸ hpublic 1 (by decide), ?_, ?_,
    ?_, ?_, ?_, ?_⟩, hscope⟩
  · intro frame h
    rw [hframes, List.mem_singleton] at h
    rw [h]
    exact hpublic 1 (by decide)
  · intro i
    rw [slot_of_size_le s (by simp [hslots])]
    trivial
  · intro c name f hf
    rw [classInfo, hclasses, methods_initialClasses] at hf
    cases hf
  · intro o f h hf
    rw [Object.callable?, (hobject o).2] at hf
    cases hf
  · intro o name i hi
    rw [hown] at hi
    cases hi
  · intro o o' name name' i hi
    rw [hown] at hi
    cases hi

theorem Unscoped.allocate (hs : s.Unscoped) (hv : s.Holds v) (o : ObjectId) (name : String)
    (readOnly : Bool) : (s.allocate o name v readOnly).2.Unscoped := by
  refine ⟨hs.1.allocate hv o name readOnly, ?_⟩
  intro o'
  rw [IsScope, payload_allocate]
  exact hs.2 o'

theorem unscoped_bare (globalMarker thisMarker : Option String) (files : Files) :
    (bare globalMarker thisMarker files).Unscoped := by
  have hint : ∀ {s : State} (o name), s.Unscoped → (s.allocate o name (.int 1) false).2.Unscoped :=
    fun o name hs => hs.allocate (v := .int 1) trivial o name false
  cases globalMarker <;> cases thisMarker
  · exact unscoped_of_plain rfl rfl rfl rfl rfl rfl rfl
  · exact hint _ _ (unscoped_of_plain rfl rfl rfl rfl rfl rfl rfl)
  · exact hint _ _ (unscoped_of_plain rfl rfl rfl rfl rfl rfl rfl)
  · exact hint _ _ (hint _ _ (unscoped_of_plain rfl rfl rfl rfl rfl rfl rfl))

theorem installs_unscoped : Installs Unscoped where
  object := by
    intro s object hs h
    refine ⟨hs.1.addObject ?_ ?_, ?_⟩
    · cases h <;> exact fun _ => rfl
    · intro f g hf
      cases h with
      | native name builtin =>
        cases hf
        nofun
      | wrapper hc => cases hf
      | system => cases hf
    · intro o
      rw [IsScope, object_addObject]
      split
      · cases h <;> exact Bool.false_ne_true
      · exact hs.2 o
  allocate name readOnly hs _ ho' := hs.allocate (v := .object _) ⟨ho', hs.2 _⟩ _ name readOnly
  method c name hs hf := ⟨hs.1.bindMethod ⟨hf, hs.2 _⟩ c name, hs.2⟩

/-- A new interpreter is sealed. -/
theorem sealed_install (globalMarker thisMarker : Option String) (files : Files) :
    (bare globalMarker thisMarker files).install.Sealed :=
  (installs_unscoped.new (unscoped_bare globalMarker thisMarker files)).1

end State

end Scripting
