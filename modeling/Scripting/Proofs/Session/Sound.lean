import Scripting.Proofs.Discipline.Reach
import Scripting.Proofs.Inheritance.Ancestry
import Scripting.Proofs.Isolation.Sealed
import Scripting.Proofs.Liveness.Closed
import Scripting.Proofs.Path

/-!
Sound states: what holds of every interpreter, whatever its host asks of it.

Whatever the state refers to exists, bases and enclosing scopes are older, frames bind names in scopes and
in the global object only, and functions are objects of the class of functions. Main statements: running
code keeps a state sound, and what it leaves behind is retained: classes and functions are what they were,
but for the lives of mortal classes (`Discipline.sound_lawful`, `Discipline.sound_hosts`).
-/

namespace Scripting

namespace State

/-- From an object outwards there are only scopes, unless the global object ends the chain. -/
inductive Scoped (s : State) : ObjectId → Prop where
  | global : Scoped s s.global
  | scope {o : ObjectId} (h : s.IsScope o)
      (hparent : ∀ p, (s.object o).parentScope? = some p → Scoped s p) : Scoped s o

/-- Frames bind their names in chains of scopes. The global object is no scope. -/
structure Framed (s : State) : Prop where
  global : ¬s.IsScope s.global
  scopes : ∀ frame ∈ s.frames, s.Scoped frame.scope

structure Sound (s : State) : Prop where
  closed : s.Closed
  framed : s.Framed
  bases : s.BasesOlder
  builtin : builtinClassCount ≤ s.classes.size
  nested : ∀ o parent, (s.object o).parentScope? = some parent → parent.index < o.index
  functions : ∀ o f, (s.object o).callable? = some f → (s.object o).classId = some .function
  functionClass : (s.classInfo .function).behavior = .function

/-- A later state in which classes and functions are what they were, but for the lives of mortal
classes. -/
structure Retains (s s' : State) : Prop where
  objects : s.objects.size ≤ s'.objects.size
  slots : s.slots.size ≤ s'.slots.size
  classes : s'.classes.size = s.classes.size
  classInfo : ∀ c, s'.classInfo c = { s.classInfo c with alive := (s'.classInfo c).alive }
  alive : ∀ c, (s'.classInfo c).alive = true → (s.classInfo c).alive = true
  mortal : ∀ c ∈ s'.mortal, c ∈ s.mortal
  kept : ∀ c, c ∉ s.mortal → (s'.classInfo c).alive = (s.classInfo c).alive
  callable : ∀ o f, (s.object o).callable? = some f → (s'.object o).callable? = some f

variable {s s' s'' : State}

theorem Scoped.mono {o : ObjectId} (ho : s.Scoped o)
    (h : ∀ o, s.IsScope o → (s'.object o).payload = (s.object o).payload)
    (hglobal : s'.global = s.global) : s'.Scoped o := by
  induction ho with
  | global => exact hglobal ▸ .global
  | @scope o hscope _ ih =>
    have hsame := h o hscope
    refine .scope (by rwa [IsScope, hsame]) fun p hp => ih p ?_
    rwa [Object.parentScope?, hsame] at hp

theorem Framed.currentScope (hs : s.Framed) : s.Scoped s.currentScope := by
  unfold State.currentScope
  split
  · rename_i frame rest hframes
    exact hs.scopes frame (by simp [hframes])
  · exact .global

/-- The scope of a new frame. -/
theorem scoped_addScope (s : State) {parent : Option ObjectId}
    (hparent : ∀ o, parent = some o → s.Scoped o) :
    (s.addObject { payload := .scope parent }).2.Scoped
      (s.addObject { payload := .scope parent }).1 := by
  have hnew : (s.addObject { payload := .scope parent }).2.object
      (s.addObject { payload := .scope parent }).1 = { payload := .scope parent } := by
    rw [object_addObject]
    exact if_pos rfl
  have hold (o : ObjectId) (ho : s.IsScope o) :
      ((s.addObject { payload := .scope parent }).2.object o).payload = (s.object o).payload := by
    rw [object_addObject, if_neg (Nat.ne_of_lt ho.lt_size)]
  refine .scope (by rw [IsScope, hnew]; rfl) fun p hp => ?_
  rw [hnew] at hp
  exact (hparent p hp).mono hold rfl

/-- What is a scope before or afterwards stays what it is. -/
theorem Framed.keep (hs : s.Framed) (hglobal : s'.global = s.global)
    (hscopes : ∀ o, s.IsScope o ∨ s'.IsScope o ∧ o = s.global →
      (s'.object o).payload = (s.object o).payload)
    (hframes : ∀ frame ∈ s'.frames, frame ∈ s.frames ∨ s.Scoped frame.scope) : s'.Framed where
  global hscope := by
    rw [hglobal] at hscope
    have hsame := hscopes s.global (.inr ⟨hscope, rfl⟩)
    rw [IsScope, hsame] at hscope
    exact hs.global hscope
  scopes frame hframe := by
    have hscoped := (hframes frame hframe).elim (hs.scopes frame) id
    exact hscoped.mono (fun o ho => hscopes o (.inl ho)) hglobal

theorem Retains.refl (s : State) : s.Retains s where
  objects := Nat.le_refl _
  slots := Nat.le_refl _
  classes := rfl
  classInfo _ := rfl
  alive _ h := h
  mortal _ h := h
  kept _ _ := rfl
  callable _ _ h := h

theorem Retains.trans (h : s.Retains s') (h' : s'.Retains s'') : s.Retains s'' where
  objects := Nat.le_trans h.objects h'.objects
  slots := Nat.le_trans h.slots h'.slots
  classes := h'.classes.trans h.classes
  classInfo c := by rw [h'.classInfo c, h.classInfo c]
  alive c hc := h.alive c (h'.alive c hc)
  mortal c hc := h.mortal c (h'.mortal c hc)
  kept c hc := by rw [h'.kept c fun hmem => hc (h.mortal c hmem), h.kept c hc]
  callable o f hf := h'.callable o f (h.callable o f hf)

theorem Retains.has (h : s.Retains s') (node : Node) (hnode : s.Has node) : s'.Has node :=
  has_of_sizes hnode h.objects h.slots (Nat.le_of_eq h.classes.symm)

theorem HasValue.retain {v : Value} (hv : s.HasValue v) (h : s.Retains s') : s'.HasValue v :=
  hv.mono h.has

/-- The classes do not change. -/
theorem retains_of_classes (hobjects : s.objects.size ≤ s'.objects.size)
    (hslots : s.slots.size ≤ s'.slots.size) (hclasses : s'.classes = s.classes)
    (hmortal : s'.mortal = s.mortal)
    (hcallable : ∀ o f, (s.object o).callable? = some f → (s'.object o).callable? = some f) :
    s.Retains s' := by
  have hinfo : ∀ c, s'.classInfo c = s.classInfo c := fun c => by
    rw [State.classInfo, State.classInfo, hclasses]
  refine ⟨hobjects, hslots, by rw [hclasses], ?_, ?_, ?_, ?_, hcallable⟩
  · exact fun c => by rw [hinfo c]
  · exact fun c hc => hinfo c ▸ hc
  · exact fun c hc => hmortal ▸ hc
  · exact fun c _ => by rw [hinfo c]

theorem retains_of_payload (hobjects : s.objects.size ≤ s'.objects.size)
    (hslots : s.slots.size ≤ s'.slots.size) (hclasses : s'.classes = s.classes)
    (hmortal : s'.mortal = s.mortal)
    (hpayload : ∀ o, (s'.object o).payload = (s.object o).payload) : s.Retains s' := by
  apply retains_of_classes hobjects hslots hclasses hmortal
  intro o f hf
  rwa [Object.callable?, hpayload]

theorem lt_size_of_callable? {o : ObjectId} {f : Callable}
    (h : (s.object o).callable? = some f) : o.index < s.objects.size := by
  apply Nat.lt_of_not_le
  intro hsize
  rw [object_of_size_le s hsize] at h
  cases h

theorem retains_addObject (s : State) (object : Object) : s.Retains (s.addObject object).2 := by
  refine retains_of_classes (by simp [addObject]) (Nat.le_refl _) rfl rfl ?_
  intro o f hf
  rw [object_addObject, if_neg]
  · exact hf
  · exact Nat.ne_of_lt (lt_size_of_callable? hf)

theorem retains_addSlot (s : State) (slot : Slot) : s.Retains (s.addSlot slot).2 :=
  retains_of_payload (Nat.le_refl _) (by simp [addSlot]) rfl rfl fun _ => rfl

theorem retains_allocate (s : State) (o : ObjectId) (name : String) (v : Value) (readOnly : Bool) :
    s.Retains (s.allocate o name v readOnly).2 :=
  retains_of_payload (by simp [allocate, addSlot, bindMember])
    (by simp [allocate, addSlot, bindMember]) rfl rfl fun o' => payload_allocate s o o' name v readOnly

theorem retains_writeSlot (s : State) (i : SlotId) (v : Value) : s.Retains (s.writeSlot i v) :=
  retains_of_payload (Nat.le_refl _) (by simp [writeSlot]) rfl rfl fun _ => rfl

theorem Settles.retains (h : s.Settles s') : s.Retains s' := by
  obtain ⟨hsame, hsize, hinfo, halive, hmortal, hkept⟩ := h
  obtain ⟨classes, mortal, rfl⟩ := hsame
  exact ⟨Nat.le_refl _, Nat.le_refl _, hsize, hinfo, halive, hmortal, hkept, fun _ _ h => h⟩

/-- Data that the host keeps does not take the place of a function. -/
theorem retains_setHostData {o : ObjectId} {n : Int64} (ho : (s.object o).hostInt? = some n)
    (data : HostData) : s.Retains (s.setHostData o data) := by
  refine retains_of_classes (by simp [setHostData]) (Nat.le_refl _) rfl rfl ?_
  intro o' f hf
  rw [setHostData, object_modify, if_neg]
  · exact hf
  · rintro ⟨rfl, -⟩
    unfold Object.hostInt? at ho
    unfold Object.callable? at hf
    split at hf
    · rename_i hpayload
      rw [hpayload] at ho
      cases ho
    · cases hf

namespace Sound

variable (hs : s.Sound)
include hs

theorem has_of_scoped {o : ObjectId} (ho : s.Scoped o) : s.Has (.object o) := by
  cases ho with
  | global => exact hs.closed.global
  | scope hscope _ => exact hscope.lt_size

/-- A sound state stays sound if what is new in it is. -/
theorem retain (h : s.Retains s') (hclosed : s'.Closed) (hframed : s'.Framed)
    (hnested : ∀ o parent, (s'.object o).parentScope? = some parent → parent.index < o.index)
    (hfunctions : ∀ o f, (s'.object o).callable? = some f →
      (s'.object o).classId = some .function) : s'.Sound where
  closed := hclosed
  framed := hframed
  bases c b hb := by
    rw [h.classInfo c] at hb
    exact hs.bases c b hb
  builtin := h.classes ▸ hs.builtin
  nested := hnested
  functions := hfunctions
  functionClass := by
    rw [h.classInfo]
    exact hs.functionClass

/-- All objects have the class and the payload that they had. -/
theorem keep (h : s.Retains s') (hclosed : s'.Closed) (hglobal : s'.global = s.global)
    (hframes : ∀ frame ∈ s'.frames, frame ∈ s.frames ∨ s.Scoped frame.scope)
    (hclass : ∀ o, (s'.object o).classId = (s.object o).classId)
    (hpayload : ∀ o, (s'.object o).payload = (s.object o).payload) : s'.Sound := by
  apply hs.retain h hclosed (hs.framed.keep hglobal (fun o _ => hpayload o) hframes)
  · intro o parent hparent
    rw [Object.parentScope?, hpayload] at hparent
    exact hs.nested o parent hparent
  · intro o f hf
    rw [Object.callable?, hpayload] at hf
    rw [hclass]
    exact hs.functions o f hf

theorem addObject {object : Object} (hmembers : object.members = {})
    (hclass : ∀ c, object.classId = some c → s.Has (.class c))
    (hpayload : ∀ node ∈ object.payload.nodes, s.Has node)
    (hfunction : ∀ f, object.callable? = some f → object.classId = some .function) :
    (s.addObject object).2.Sound := by
  have hframed : (s.addObject object).2.Framed := by
    refine hs.framed.keep rfl (fun o ho => ?_) fun _ => .inl
    rw [object_addObject, if_neg]
    rcases ho with hscope | ⟨-, rfl⟩
    · exact Nat.ne_of_lt hscope.lt_size
    · exact Nat.ne_of_lt hs.closed.global
  apply hs.retain (s.retains_addObject object) (hs.closed.addObject hmembers hclass hpayload) hframed
  · intro o parent hparent
    rw [object_addObject] at hparent
    split at hparent
    · rename_i hnew
      rw [hnew]
      have hnode : Node.object parent ∈ object.payload.nodes := by
        unfold Object.parentScope? at hparent
        split at hparent
        · rename_i hscope
          simp [hscope, hparent, Payload.nodes]
        · cases hparent
      exact hpayload _ hnode
    · exact hs.nested o parent hparent
  · intro o f hf
    rw [object_addObject] at hf ⊢
    split at hf
    · rename_i hnew
      rw [if_pos hnew]
      exact hfunction f hf
    · rename_i hold
      rw [if_neg hold]
      exact hs.functions o f hf

theorem addSlot {slot : Slot} (hv : s.HasValue slot.value) : (s.addSlot slot).2.Sound :=
  hs.keep (s.retains_addSlot slot) (hs.closed.addSlot hv) rfl (fun _ => .inl) (fun _ => rfl)
    fun _ => rfl

theorem allocate {v : Value} (hv : s.HasValue v) (o : ObjectId) (name : String) (readOnly : Bool) :
    (s.allocate o name v readOnly).2.Sound :=
  hs.keep (s.retains_allocate o name v readOnly) (hs.closed.allocate hv o name readOnly) rfl
    (fun _ => .inl) (fun o' => classId_allocate s o o' name v readOnly)
    fun o' => payload_allocate s o o' name v readOnly

theorem writeSlot {v : Value} (hv : s.HasValue v) (i : SlotId) : (s.writeSlot i v).Sound :=
  hs.keep (s.retains_writeSlot i v) (hs.closed.writeSlot hv i) rfl (fun _ => .inl) (fun _ => rfl)
    fun _ => rfl

theorem settles (h : s.Settles s') : s'.Sound := by
  have hretains := h.retains
  have hclosed := hs.closed.settles h
  obtain ⟨classes, mortal, rfl⟩ := h.same
  exact hs.keep hretains hclosed rfl (fun _ => .inl) (fun _ => rfl) fun _ => rfl

theorem setHostData {o : ObjectId} {n : Int64} (ho : (s.object o).hostInt? = some n)
    (data : HostData) : (s.setHostData o data).Sound := by
  have hframed : (s.setHostData o data).Framed := by
    refine hs.framed.keep rfl (fun o' hscope => ?_) fun _ => .inl
    rw [IsScope, IsScope, State.setHostData, object_modify] at hscope
    rw [State.setHostData, object_modify]
    split
    · rename_i hsame
      rw [if_pos hsame] at hscope
      obtain ⟨rfl, -⟩ := hsame
      rcases hscope with hscope | ⟨hscope, -⟩
      · -- a scope keeps no data of the host
        unfold Object.hostInt? at ho
        split at ho
        · rename_i hpayload
          rw [hpayload] at hscope
          cases hscope
        · cases ho
      · cases hscope
    · rfl
  apply hs.retain (retains_setHostData ho data) (hs.closed.setHostData o data) hframed
  · intro o' parent hparent
    rw [State.setHostData, object_modify] at hparent
    split at hparent
    · cases hparent
    · exact hs.nested o' parent hparent
  · intro o' f hf
    rw [State.setHostData, object_modify] at hf ⊢
    split at hf
    · cases hf
    · rename_i hother
      rw [if_neg hother]
      exact hs.functions o' f hf

/-- What is outside of the heap changes. -/
theorem outside (h : s.SameHeap s')
    (hframes : ∀ frame ∈ s'.frames, frame ∈ s.frames ∨
      s.Has (.object frame.this) ∧ s.Scoped frame.scope)
    (hheld : ∀ node ∈ s'.held, node ∈ s.held ∨ s.Has node) : s'.Sound ∧ s.Retains s' := by
  have hclosed := hs.closed.outside h (fun frame hframe =>
    (hframes frame hframe).imp_right (And.imp_right hs.has_of_scoped)) hheld
  obtain ⟨frames, output, errorOutput, held, rfl⟩ := h
  have hretains : s.Retains { s with frames, output, errorOutput, held } :=
    retains_of_payload (Nat.le_refl _) (Nat.le_refl _) rfl rfl fun _ => rfl
  exact ⟨hs.keep hretains hclosed rfl (fun frame hframe => (hframes frame hframe).imp_right And.right)
    (fun _ => rfl) fun _ => rfl, hretains⟩

theorem popFrame : s.popFrame.Sound ∧ s.Retains s.popFrame :=
  hs.outside ⟨_, _, _, _, rfl⟩ (fun _ hframe => .inl (List.mem_of_mem_tail hframe)) fun _ => .inl

theorem hold {nodes : List Node} (hnodes : ∀ node ∈ nodes, s.Has node) :
    (s.hold nodes).Sound ∧ s.Retains (s.hold nodes) :=
  hs.outside ⟨_, _, _, _, rfl⟩ (fun _ => .inl) fun node hnode =>
    (mem_held_hold hnode).imp_right (hnodes node)

/-- A frame with a new scope. -/
theorem pushScope {parent : Option ObjectId} (hparent : ∀ o, parent = some o → s.Scoped o)
    (name : String) {this : ObjectId} (hthis : s.Has (.object this)) :
    let s' : State := { (s.addObject { payload := .scope parent }).2 with
      frames := ⟨name, this, (s.addObject { payload := .scope parent }).1⟩ :: s.frames }
    s'.Sound ∧ s.Retains s' := by
  intro s'
  have hsound : (s.addObject { payload := .scope parent }).2.Sound := by
    refine hs.addObject rfl (fun c hc => by cases hc) ?_ fun f hf => by cases hf
    intro node hnode
    obtain ⟨o, ho, rfl⟩ := List.mem_map.1 hnode
    exact hs.has_of_scoped (hparent o (Option.mem_toList.1 ho))
  have hretains := s.retains_addObject { payload := .scope parent }
  have houtside : s'.Sound ∧ (s.addObject { payload := .scope parent }).2.Retains s' := by
    refine hsound.outside ⟨_, _, _, _, rfl⟩ (fun frame hframe => ?_) fun _ => .inl
    rcases List.mem_cons.1 hframe with rfl | hold
    · exact .inr ⟨hretains.has _ hthis, s.scoped_addScope hparent⟩
    · exact .inl hold
  exact ⟨houtside.1, hretains.trans houtside.2⟩

theorem pushCall (name : String) {this : Option ObjectId}
    (hthis : ∀ o, this = some o → s.Has (.object o)) :
    (s.pushCall name this).Sound ∧ s.Retains (s.pushCall name this) := by
  have hframe : s.Has (.object (this.getD s.globalThis)) := by
    cases this with
    | none => exact hs.closed.globalThis
    | some o => exact hthis o rfl
  have hnone : ∀ o, none = some o → s.Scoped o := fun o ho => by cases ho
  exact hs.pushScope hnone name hframe

theorem pushBlock : s.pushBlock.Sound ∧ s.Retains s.pushBlock := by
  have hscope : ∀ o, some s.currentScope = some o → s.Scoped o := by
    rintro _ ⟨⟩
    exact hs.framed.currentScope
  exact hs.pushScope hscope "" hs.closed.has_thisObject

theorem pushGlobal (name : String) : (s.pushGlobal name).Sound ∧ s.Retains (s.pushGlobal name) := by
  refine hs.outside ⟨_, _, _, _, rfl⟩ (fun frame hframe => ?_) fun _ => .inl
  rcases List.mem_cons.1 hframe with rfl | hold
  · exact .inr ⟨hs.closed.globalThis, .global⟩
  · exact .inl hold

/-! New objects. -/

theorem has_builtin {c : ClassId} (hc : c.index < builtinClassCount) : s.Has (.class c) :=
  Nat.lt_of_lt_of_le hc hs.builtin

/-- An object that holds nothing but its class, and is no function. -/
theorem addPlain {object : Object} (hmembers : object.members = {})
    (hclass : ∀ c, object.classId = some c → s.Has (.class c)) (hnodes : object.payload.nodes = [])
    (hfunction : object.callable? = none) : (s.addObject object).2.Sound := by
  apply hs.addObject hmembers hclass
  · intro node hnode
    rw [hnodes] at hnode
    cases hnode
  · intro f hf
    rw [hfunction] at hf
    cases hf

theorem newFunction {callable : Callable}
    (hnodes : ∀ node ∈ (Payload.function callable).nodes, s.Has node) :
    (s.newFunction callable).2.Sound := by
  apply hs.addObject rfl ?_ hnodes fun _ _ => rfl
  rintro _ ⟨⟩
  exact hs.has_builtin (by decide)

theorem newWrapper {c : ClassId} (hc : s.Has (.class c)) : (s.newWrapper c).2.Sound := by
  apply hs.addObject rfl
  · rintro _ ⟨⟩
    exact hs.has_builtin (by decide)
  · intro node hnode
    rw [List.mem_singleton.1 hnode]
    exact hc
  · nofun

theorem newString (text : String) : (s.newString text).2.Sound := by
  apply hs.addPlain rfl ?_ rfl rfl
  rintro _ ⟨⟩
  exact hs.has_builtin (by decide)

/-- The objects that running code makes. -/
theorem makes {code : Stmt → Prop} {object : Object} (h : s.Makes code object) :
    (s.addObject object).2.Sound := by
  cases h with
  | string text => exact hs.newString text
  | script definition _ =>
    apply hs.newFunction
    intro node hnode
    cases hnode
  | fault c message hc =>
    apply hs.addPlain rfl ?_ rfl rfl
    rintro _ ⟨⟩
    apply hs.has_builtin
    rcases hc with rfl | rfl <;> decide
  | exception o c message hc _ =>
    apply hs.addPlain rfl ?_ rfl rfl
    rintro _ ⟨⟩
    exact hs.closed.has_wrapped hc
  | tally o c n hc _ =>
    apply hs.addPlain rfl ?_ rfl rfl
    rintro _ ⟨⟩
    exact hs.closed.has_wrapped hc
  | plain o c hc _ _ _ =>
    apply hs.addPlain rfl ?_ rfl rfl
    rintro _ ⟨⟩
    exact hs.closed.has_wrapped hc

/-! Classes. -/

/-- A class whose base exists. -/
theorem addClass {c : Class} (hmethods : c.methods = {})
    (hbase : ∀ b, c.base = some b → s.Has (.class b)) : (s.addClass c).2.Sound where
  closed := hs.closed.addClass hmethods
  framed := hs.framed.keep rfl (fun _ _ => rfl) fun _ => .inl
  bases := by
    intro c' b hb
    rw [classInfo_addClass] at hb
    split at hb
    · rename_i hnew
      rw [hnew]
      exact hbase b hb
    · exact hs.bases c' b hb
  builtin := by
    have hsize := hs.builtin
    simp only [State.addClass, Array.size_push]
    omega
  nested := hs.nested
  functions := hs.functions
  functionClass := by
    rw [classInfo_addClass, if_neg]
    · exact hs.functionClass
    · have hsize : ClassId.function.index < s.classes.size :=
        Nat.lt_of_lt_of_le (by decide) hs.builtin
      omega

theorem bindMethod {f : ObjectId} (hf : s.Has (.object f)) (c : ClassId) (name : String) :
    (s.bindMethod c name f).Sound where
  closed := hs.closed.bindMethod hf c name
  framed := hs.framed.keep rfl (fun _ _ => rfl) fun _ => .inl
  bases := by
    intro c' b hb
    rw [classInfo_bindMethod] at hb
    split at hb <;> exact hs.bases c' b hb
  builtin := by simpa [State.bindMethod] using hs.builtin
  nested := hs.nested
  functions := hs.functions
  functionClass := by
    rw [classInfo_bindMethod]
    split <;> exact hs.functionClass

end Sound

/-- The constants that functions of the host give were there at the start. -/
def Supplies (start s : State) : Prop :=
  ∀ o f v, (s.object o).callable? = some (.native f) → f.callback = .host (.constant v) →
    start.HasValue v

theorem Supplies.congr {start : State} (h : start.Supplies s)
    (hpayload : ∀ o, (s'.object o).payload = (s.object o).payload) : start.Supplies s' := by
  intro o f v hf
  rw [Object.callable?, hpayload] at hf
  exact h o f v hf

/-- An object that is no function of the host. -/
theorem Supplies.addObject {start : State} (h : start.Supplies s) {object : Object}
    (hobject : ∀ f g, object.callable? = some (.native f) → f.callback ≠ .host g) :
    start.Supplies (s.addObject object).2 := by
  intro o f v hf hcallback
  rw [object_addObject] at hf
  split at hf
  · exact absurd hcallback (hobject f _ hf)
  · exact h o f v hf hcallback

theorem Sound.supplies (hs : s.Sound) : s.Supplies s :=
  fun _ _ _ hf hcallback => hs.closed.hasValue_constant hf hcallback

end State

namespace Discipline

open State

/-- States stay sound and retain classes and functions. -/
def sound (start : State) : Discipline where
  inv s := s.Sound ∧ start.Retains s ∧ start.Supplies s
  leads s s' := s.Retains s'
  good s v := s.HasValue v
  stored s v := s.HasValue v
  raised s e := s.HasValue e.value
  expr _ := True
  stmt _ := True
  host f := ∀ v, f = .constant v → start.HasValue v

variable {start s s' : State}

theorem sound_step (hs : (sound start).inv s) (h : s'.Sound) (hretains : s.Retains s')
    (hsupplies : start.Supplies s') : (sound start).Step s s' :=
  ⟨⟨h, hs.2.1.trans hretains, hsupplies⟩, hretains⟩

theorem sound_outside (hs : (sound start).inv s) (h : s'.Sound ∧ s.Retains s')
    (hobjects : s'.objects = s.objects) : (sound start).Step s s' := by
  apply sound_step hs h.1 h.2 (hs.2.2.congr _)
  intro o
  rw [object, object, hobjects]

theorem sound_pushes {s₁ : State} (h : (sound start).Step s s₁) : (sound start).Pushes s s₁ where
  inv := h.1
  good _ hv := HasValue.retain hv h.2
  stored _ hv := HasValue.retain hv h.2
  back s' hs' hl := by
    obtain ⟨hpop, hleads⟩ := sound_outside hs' hs'.1.popFrame rfl
    exact ⟨hpop, h.2.trans (Retains.trans hl hleads)⟩

theorem sound_lawful (start : State) : (sound start).Lawful where
  refl s := .refl s
  trans h h' := h.trans h'
  good_mono h hv := hv.retain h
  stored_mono h hv := hv.retain h
  raised_mono h he := he.retain h
  good_of_stored hv := hv
  literal := by
    intro v s h
    cases v with
    | object o => exact h.elim
    | reference r => exact h.elim
    | _ => exact hasValue_of_nodes rfl
  deref hs hv := hs.1.closed.hasValue_deref hv
  this hs := hasValue_object.2 hs.1.closed.has_thisObject
  global hs := hasValue_object.2 hs.1.closed.global
  container hr ho := hasValue_object.2 ((hasValue_reference.1 hr).2 _ ho)
  read hs _ := hs.1.closed.hasValue_slot _
  raise _ hv := hv
  raised_value he := he
  make := by
    intro s object hs h _
    refine ⟨sound_step hs (hs.1.makes h) (s.retains_addObject object)
      (hs.2.2.addObject h.callback_ne_host), hasValue_object.2 ?_⟩
    simp [Has, State.addObject]
  allocate := by
    intro s o v name readOnly hs _ hv
    have hretains := s.retains_allocate o name v readOnly
    refine ⟨sound_step hs (hs.1.allocate hv o name readOnly) hretains
      (hs.2.2.congr fun o' => payload_allocate s o o' name v readOnly), ?_⟩
    intro ho
    refine hasValue_reference.2 ⟨by simp [Has, State.allocate, State.addSlot, bindMember], ?_⟩
    rintro _ ⟨⟩
    exact hretains.has _ (hasValue_object.1 ho)
  method := by
    intro s o name f hs ho hf
    have hslot : s.HasValue (.object f) := hasValue_object.2 (hs.1.closed.has_objectMethod hf)
    have hretains := s.retains_addSlot ⟨.object f, true, some name⟩
    refine ⟨sound_step hs (hs.1.addSlot hslot) hretains (hs.2.2.congr fun _ => rfl), ?_⟩
    refine hasValue_reference.2 ⟨by simp [Has, State.addSlot], ?_⟩
    rintro _ ⟨⟩
    exact hretains.has _ (hasValue_object.1 ho)
  own := by
    intro s o name i hs ho hi
    refine hasValue_reference.2 ⟨hs.1.closed.has_own hi, ?_⟩
    rintro _ ⟨⟩
    exact hasValue_object.1 ho
  found := by
    intro s name scope i hs hfound
    refine hasValue_reference.2 ⟨hs.1.closed.has_own (findScope_own hfound), ?_⟩
    intro o ho
    split at ho
    · cases ho
      exact hs.1.closed.global
    · cases ho
  write hs _ _ hv := sound_step hs (hs.1.writeSlot hv _) (retains_writeSlot _ _ _)
    (hs.2.2.congr fun _ => rfl)
  output _ hs := sound_outside hs (hs.1.outside ⟨_, _, _, _, rfl⟩ (fun _ => .inl) fun _ => .inl) rfl
  errorOutput _ hs :=
    sound_outside hs (hs.1.outside ⟨_, _, _, _, rfl⟩ (fun _ => .inl) fun _ => .inl) rfl
  hold := by
    intro s nodes hs hnodes
    refine sound_outside hs (hs.1.hold ?_) rfl
    intro node hnode
    obtain ⟨v, hv, hmem⟩ := hnodes node hnode
    exact hv node hmem
  free hs hs' hl := sound_outside hs'
    (hs'.1.outside ⟨_, _, _, _, rfl⟩ (fun _ => .inl) fun node hnode =>
      .inr (Retains.has hl node (hs.1.closed.held node hnode))) rfl
  settle := by
    intro s classes hs
    have hsettles := s.settles_settleAmong classes
    apply sound_step hs (hs.1.settles hsettles) hsettles.retains (hs.2.2.congr _)
    obtain ⟨_, _, h⟩ := hsettles.same
    rw [h]
    exact fun _ => rfl
  pushCall := by
    intro s container name hs hcontainer
    obtain ⟨hpush, hretains⟩ := hs.1.pushCall name fun o ho => hasValue_object.1 (hcontainer o ho)
    have hsupplies : start.Supplies (s.addObject { payload := .scope none }).2 :=
      hs.2.2.addObject fun _ _ hf => by cases hf
    exact sound_pushes (sound_step hs hpush hretains hsupplies)
  pushGlobal name hs := sound_pushes (sound_outside hs (hs.1.pushGlobal name) rfl)
  pushBlock := by
    intro s hs
    obtain ⟨hpush, hretains⟩ := hs.1.pushBlock
    have hsupplies : start.Supplies (s.addObject { payload := .scope (some s.currentScope) }).2 :=
      hs.2.2.addObject fun _ _ hf => by cases hf
    exact sound_pushes (sound_step hs hpush hretains hsupplies)
  good_pop hv := hv
  stored_pop hv := hv
  raised_pop he := he
  expr_parts {e} _ := by cases e <;> simp [Expr.Parts, sound]
  stmt_parts {statement} _ := by cases statement <;> simp [Stmt.Parts, sound]
  script _ _ _ _ := trivial
  program _ _ _ _ _ := trivial
  hostOf := by
    rintro s o f h hs hf hcallback v rfl
    exact hs.2.2 o f v hf hcallback

theorem sound_hosts (start : State) : (sound start).twin.Hosts := by
  apply (sound_lawful start).twin.hosts
  · rintro _ o n data ⟨s, rfl, hs⟩ - hn
    refine Step.twin (sound_step hs (hs.1.setHostData hn data) (retains_setHostData hn data) ?_)
    intro o' f v hf
    change ((s.setHostData o data).object o').callable? = _ at hf
    rw [State.setHostData, object_modify] at hf
    split at hf
    · cases hf
    · exact hs.2.2 o' f v hf
  · rintro _ v hv ⟨s, rfl, hs⟩
    exact ⟨rfl, (hv v rfl).retain hs.2.1⟩
  · rintro _ - ⟨s, rfl, -⟩
    exact ⟨rfl, hasValue_of_nodes rfl⟩

end Discipline

end Scripting
