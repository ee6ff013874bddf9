import Scripting.Proofs.Session.Basic
import Scripting.Proofs.Session.Sound

/-!
Computations on behalf of a host that keep the state sound and retain classes and functions, however they
end: what the operands of a command stand for, and what new objects are made of.
-/

namespace Scripting

open State Discipline

/-- The end of a computation that started in `s`: a sound state that retains what was there, and a
result that satisfies `Q` or an exception that exists. -/
def Outcome.Upholds {α : Type} (s : State) (Q : State → α → Prop) : Outcome α → Prop
  | .ok a s' => s'.Sound ∧ s.Retains s' ∧ Q s' a
  | .thrown e s' => s'.Sound ∧ s.Retains s' ∧ s'.HasValue e.value
  | .outOfFuel | .needsFile _ => True

variable {α β : Type} {s start : State}

theorem State.Sound.inv_self (hs : s.Sound) : (sound s).inv s :=
  ⟨hs, .refl s, hs.supplies⟩

theorem State.Sound.twin_self (hs : s.Sound) : (sound s).twin.inv ⟨s, s⟩ :=
  ⟨s, rfl, hs.inv_self⟩

namespace Eval

/-- A computation that starts in `s` ends in a sound state that retains what was there. -/
def Upholds (s : State) (Q : State → α → Prop) (m : Eval α) : Prop :=
  (m s).Upholds s Q

namespace Upholds

variable {Q : State → α → Prop} {P : State → β → Prop} {m : Eval α} {f : α → Eval β}

theorem of_keeps (h : (sound start).Keeps s Q m) : Upholds s Q m := by
  unfold Upholds
  unfold Keeps at h
  generalize m s = outcome at h ⊢
  cases outcome with
  | ok a s' => exact ⟨h.1.1, h.2⟩
  | thrown e s' => exact ⟨h.1.1, h.2⟩
  | outOfFuel => trivial
  | needsFile path => trivial

theorem of_twin {R : Duo → α → α → Prop} (h : (sound start).twin.Keeps ⟨s, s⟩ R m m)
    (hR : ∀ s' a, R ⟨s', s'⟩ a a → Q s' a) : Upholds s Q m :=
  of_keeps (.of_twin h hR)

theorem pure {a : α} (hs : s.Sound) (ha : Q s a) : Upholds s Q (Pure.pure a) :=
  ⟨hs, .refl s, ha⟩

theorem look {g : State → α} (h : Upholds s P (f (g s))) : Upholds s P (Eval.look g >>= f) :=
  h

/-- What happens after an earlier change counts from the state before it. -/
theorem after {s' : State} (h : s.Retains s') {outcome : Outcome α}
    (hrest : outcome.Upholds s' Q) : outcome.Upholds s Q := by
  cases outcome with
  | ok a s'' => exact ⟨hrest.1, h.trans hrest.2.1, hrest.2.2⟩
  | thrown e s'' => exact ⟨hrest.1, h.trans hrest.2.1, hrest.2.2⟩
  | outOfFuel => trivial
  | needsFile path => trivial

theorem bind (hm : Upholds s Q m)
    (hf : ∀ a s', s'.Sound → s.Retains s' → Q s' a → Upholds s' P (f a)) :
    Upholds s P (m >>= f) := by
  change (Eval.andThen m f s).Upholds s P
  unfold Upholds Eval.andThen at *
  generalize m s = outcome at hm ⊢
  cases outcome with
  | ok a s' => exact after hm.2.1 (hf a s' hm.1 hm.2.1 hm.2.2)
  | thrown e s' => exact hm
  | outOfFuel => trivial
  | needsFile path => trivial

theorem update {g : State → α × State} (hretains : s.Retains (g s).2)
    (h : Upholds (g s).2 P (f (g s).1)) : Upholds s P (Eval.update g >>= f) :=
  after hretains h

theorem change {g : State → State} {f : Unit → Eval β} (hretains : s.Retains (g s))
    (h : Upholds (g s) P (f ())) : Upholds s P (Eval.change g >>= f) :=
  after hretains h

/-- Looking at a state in which all lives are settled. -/
theorem survey {g : State → α} (h : Upholds s.settle P (f (g s.settle))) :
    Upholds s P (Eval.survey g >>= f) :=
  after s.settles_settle.retains h

end Upholds

end Eval

namespace State.Sound

variable (hs : s.Sound)
include hs

theorem settle : s.settle.Sound :=
  hs.settles s.settles_settle

theorem newException {c : ClassId} (hc : s.Has (.class c)) (message : String) :
    (s.newException c message).2.Sound ∧ s.Retains (s.newException c message).2 ∧
      (s.newException c message).2.Has (.object (s.newException c message).1) := by
  let object : Object := { classId := some c, payload := .exception ⟨message, s.backtrace⟩ }
  let s₁ := (s.addObject object).2
  let s₂ := (s₁.newString message).2
  have hclass : ∀ c', object.classId = some c' → s.Has (.class c') := by
    rintro _ ⟨⟩
    exact hc
  have hsound₁ : s₁.Sound := hs.addPlain rfl hclass rfl rfl
  have hretains₁ : s.Retains s₁ := s.retains_addObject object
  have hsound₂ : s₂.Sound := hsound₁.newString message
  have hretains₂ : s₁.Retains s₂ := s₁.retains_addObject _
  have htext : s₂.HasValue (.object (s₁.newString message).1) := by
    refine hasValue_object.2 ?_
    simp [s₂, Has, State.newString, State.addObject]
  have hobject : s₁.Has (.object (s.addObject object).1) := by
    simp [s₁, Has, State.addObject]
  have hretains₃ := s₂.retains_allocate (s.addObject object).1 "message"
    (.object (s₁.newString message).1) false
  exact ⟨hsound₂.allocate htext _ _ _, hretains₁.trans (hretains₂.trans hretains₃),
    hretains₃.has _ (hretains₂.has _ hobject)⟩

theorem throwOf {c : ClassId} (hc : s.Has (.class c)) (message : String)
    {Q : State → α → Prop} : Eval.Upholds s Q (Eval.throwOf c message) := by
  obtain ⟨hsound, hretains, hobject⟩ := hs.newException hc message
  exact ⟨hsound, hretains, hasValue_object.2 hobject⟩

theorem construct {c : ClassId} (hc : s.Has (.class c)) {args : List Value}
    (hargs : ∀ a ∈ args, s.HasValue a) :
    Eval.Upholds s (fun s' o => s'.Has (.object o)) (Eval.construct c args) := by
  have L := sound_lawful s
  have hnew (object : Object) (s' : State) :
      (s'.addObject object).2.Has (.object (s'.addObject object).1) := by
    simp [Has, State.addObject]
  have htext : Eval.Upholds s (fun _ _ => True) (Eval.textOrEmpty args 0) :=
    .of_twin (L.twin.textOrEmpty 0 hs.twin_self hargs) fun _ _ _ => trivial
  have hinstance (s' : State) (hs' : s'.Sound) (hretains : s.Retains s') (payload : Payload)
      (hnodes : payload.nodes = []) (hcallable : Object.callable? ⟨some c, {}, payload⟩ = none) :
      (s'.addObject ⟨some c, {}, payload⟩).2.Sound := by
    refine hs'.addPlain rfl ?_ hnodes hcallable
    rintro _ ⟨⟩
    exact hretains.has _ hc
  unfold Eval.construct
  apply Eval.Upholds.look
  cases (s.classInfo c).behavior with
  | string =>
    apply htext.bind
    intro text s' hs' _ _
    exact ⟨hs'.newString text, s'.retains_addObject _, hnew _ s'⟩
  | exception =>
    apply htext.bind
    intro message s' hs' hretains _
    exact hs'.newException (hretains.has _ hc) message
  | tally =>
    have hfirst : (sound s).twin.stored ⟨s, s⟩ (args.getD 0 .undefined) :=
      L.twin.stored_getD 0 hargs
    have hint : Eval.Upholds s (fun _ _ => True) (Eval.toInt (args.getD 0 .undefined)) :=
      .of_twin (L.twin.toInt hs.twin_self ⟨rfl, hfirst⟩) fun _ _ _ => trivial
    apply hint.bind
    · intro n s' hs' hretains _
      exact ⟨hinstance s' hs' hretains _ rfl rfl, s'.retains_addObject _, hnew _ s'⟩
  | _ => exact ⟨hinstance s hs (.refl s) _ rfl rfl, s.retains_addObject _, hnew _ s⟩

end State.Sound

namespace Host

/-- What the registers of a host name exists. -/
structure Registers.Sound (r : Registers) (s : State) : Prop where
  values : ∀ name v, r.values.find? name = some v → s.HasValue v
  slots : ∀ name i, r.slots.find? name = some i → s.Has (.slot i)
  slot : s.Has (.slot default)
  classes : ∀ name c, r.classes.find? name = some c → s.Has (.class c)

/-- What a host is told exists. -/
def Told (s : State) (reply : Reply) : Prop :=
  ∀ node ∈ reply.nodes, s.Has node

theorem told_of_nodes {reply : Reply} (h : reply.nodes = []) : Told s reply := by
  intro node hnode
  rw [h] at hnode
  cases hnode

theorem told_slot {found : Option SlotId} (h : ∀ i, found = some i → s.Has (.slot i)) :
    Told s (.slot found) := by
  cases found with
  | none => exact told_of_nodes rfl
  | some i => exact List.forall_mem_singleton.2 (h i rfl)

/-- What the host is told of a result. -/
theorem upholds_told {Q : State → α → Prop} {m : Eval α} {k : α → Reply} (hm : Eval.Upholds s Q m)
    (hk : ∀ s' a, Q s' a → Told s' (k a)) : Eval.Upholds s Told (m >>= fun a => pure (k a)) :=
  hm.bind fun a s' hs' _ ha => .pure hs' (hk s' a ha)

theorem upholds_told_of_twin {R : Duo → α → α → Prop} {m : Eval α} {k : α → Reply}
    (h : (sound start).twin.Keeps ⟨s, s⟩ R m m) (hk : ∀ s' a, R ⟨s', s'⟩ a a → Told s' (k a)) :
    Eval.Upholds s Told (m >>= fun a => pure (k a)) :=
  upholds_told (Eval.Upholds.of_twin (Q := fun s' a => R ⟨s', s'⟩ a a) h fun _ _ h => h) hk

namespace Registers.Sound

variable {r : Registers} {s' : State}

theorem mono (hr : r.Sound s) (h : ∀ node, s.Has node → s'.Has node) : r.Sound s' where
  values name v hv := (hr.values name v hv).mono h
  slots name i hi := h _ (hr.slots name i hi)
  slot := h _ hr.slot
  classes name c hc := h _ (hr.classes name c hc)

variable (hr : r.Sound s)
include hr

theorem retain (h : s.Retains s') : r.Sound s' :=
  hr.mono h.has

theorem has_slotId (name : String) : s.Has (.slot (r.slotId name)) := by
  unfold slotId
  cases hi : r.slots.find? name with
  | none => exact hr.slot
  | some i => exact hr.slots name i hi

theorem has_classId (hs : s.Sound) (name : String) : s.Has (.class (r.classId name)) := by
  unfold classId
  cases hc : r.classes.find? name with
  | some c => exact hr.classes name c hc
  | none =>
    cases hi : State.initialClasses.findIdx? (·.name = name) with
    | some i =>
      obtain ⟨hlt, -⟩ := Array.findIdx?_eq_some_iff_getElem.1 hi
      exact hs.has_builtin hlt
    | none => exact hs.has_builtin (by decide)

theorem hasValue (name : String) : s.HasValue ((r.values.find? name).getD .undefined) := by
  cases hv : r.values.find? name with
  | none => exact hasValue_of_nodes rfl
  | some v => exact hr.values name v hv

end Registers.Sound

section
variable {r : Registers}

/-! Operands. -/

theorem twin_operand (hs : (sound start).inv s) (hr : r.Sound s) {v : Operand}
    (hv : v.isPlain = true) :
    (sound start).twin.Keeps ⟨s, s⟩ (Lockstep.Alike (sound start).twin.stored)
      (operand r v) (operand r v) := by
  have L := sound_lawful start
  have hinv : (sound start).twin.inv ⟨s, s⟩ := ⟨s, rfl, hs⟩
  cases v with
  | value v => exact L.twin.give hinv (hasValue_of_nodes (List.isEmpty_iff.1 hv))
  | text text => exact L.twin.newStringValue text hinv
  | register name => exact L.twin.give hinv (hr.hasValue name)
  | global => exact L.twin.give hinv (L.global hs)
  | globalThis => exact L.twin.give hinv (hasValue_object.2 hs.1.closed.globalThis)
  | this => exact L.twin.give hinv (L.this hs)
  | scope => exact L.twin.give hinv (hasValue_object.2 hs.1.closed.has_currentScope)

theorem twin_operands (hs : (sound start).inv s) (hr : r.Sound s) {vs : List Operand}
    (hvs : ∀ v ∈ vs, v.isPlain = true) :
    (sound start).twin.Keeps ⟨s, s⟩
      (Lockstep.Alike fun τ values => ∀ v ∈ values, (sound start).twin.stored τ v)
      (operands r vs) (operands r vs) := by
  have L := sound_lawful start
  induction vs generalizing s with
  | nil => exact L.twin.give ⟨s, rfl, hs⟩ fun v hv => by cases hv
  | cons v rest ih =>
    rw [List.forall_mem_cons] at hvs
    apply L.twin.next (twin_operand hs hr hvs.1)
    rintro value _ ⟨s₁, rfl, hs₁⟩ hl₁ hvalue
    apply L.twin.next (ih hs₁ (hr.retain hl₁) hvs.2)
    rintro values _ ⟨s₂, rfl, hs₂⟩ hl₂ hvalues
    exact L.twin.give ⟨s₂, rfl, hs₂⟩ (List.forall_mem_cons.2 ⟨HasValue.retain hvalue hl₂, hvalues⟩)

theorem twin_objectOperand (hs : (sound start).inv s) (hr : r.Sound s) {v : Operand}
    (hv : v.isPlain = true) :
    (sound start).twin.Keeps ⟨s, s⟩
      (Lockstep.Alike fun τ o => (sound start).twin.stored τ (.object o))
      (objectOperand r v) (objectOperand r v) := by
  have L := sound_lawful start
  apply L.twin.next (twin_operand hs hr hv)
  intro value τ hτ _ hvalue
  exact L.twin.toObject hτ ⟨rfl, hvalue⟩

variable (hs : s.Sound) (hr : r.Sound s)
include hs hr

theorem upholds_operand {v : Operand} (hv : v.isPlain = true) :
    Eval.Upholds s State.HasValue (operand r v) :=
  .of_twin (twin_operand hs.inv_self hr hv) fun _ _ h => h.2

theorem upholds_operands {vs : List Operand} (hvs : ∀ v ∈ vs, v.isPlain = true) :
    Eval.Upholds s (fun s' values => ∀ v ∈ values, s'.HasValue v) (operands r vs) :=
  .of_twin (twin_operands hs.inv_self hr hvs) fun _ _ h => h.2

theorem upholds_objectOperand {v : Operand} (hv : v.isPlain = true) :
    Eval.Upholds s (fun s' o => s'.Has (.object o)) (objectOperand r v) :=
  .of_twin (twin_objectOperand hs.inv_self hr hv) fun _ _ h => hasValue_object.1 h.2

theorem upholds_optionalObject {v : Option Operand} (hv : ∀ w, v = some w → w.isPlain = true) :
    Eval.Upholds s (fun s' found => ∀ o, found = some o → s'.Has (.object o)) (optionalObject r v) := by
  cases v with
  | none => exact .pure hs fun o ho => by cases ho
  | some w =>
    apply Eval.Upholds.bind (upholds_objectOperand hs hr (hv w rfl))
    intro o s' hs' _ ho
    refine .pure hs' ?_
    rintro _ ⟨⟩
    exact ho

/-- The callback of a new function refers to what exists. -/
theorem upholds_callback {function : FunctionSpec} (hoperands : ∀ v ∈ function.operands, v.isPlain = true)
    (hplain : function.isPlain = true) :
    Eval.Upholds s (fun s' f => ∀ name required,
      ∀ node ∈ (Payload.function (.native ⟨name, required, f⟩)).nodes, s'.Has node)
      (callback r function) := by
  cases function with
  | constant v =>
    apply Eval.Upholds.bind (upholds_operand hs hr (hoperands v (by simp [FunctionSpec.operands])))
    intro value s' hs' _ hvalue
    exact .pure hs' fun _ _ => hvalue
  | plain function =>
    refine .pure hs fun _ _ node hnode => ?_
    cases function with
    | constant v =>
      have hempty : v.nodes = [] := List.isEmpty_iff.1 hplain
      change node ∈ v.nodes at hnode
      rw [hempty] at hnode
      cases hnode
    | _ => cases hnode

theorem upholds_payload {spec : PayloadSpec}
    (hspec : ∀ parent, spec = .scope (some parent) → parent.isPlain = true) :
    Eval.Upholds s (fun s' p => (∀ node ∈ p.nodes, s'.Has node) ∧ ∀ f, p ≠ .function f)
      (payload r spec) := by
  cases spec with
  | wrapped name =>
    refine .pure hs ⟨fun node hnode => ?_, nofun⟩
    rw [List.mem_singleton.1 hnode]
    exact hr.has_classId hs name
  | scope parent =>
    apply Eval.Upholds.bind (upholds_optionalObject hs hr ?_)
    · intro o s' hs' _ ho
      refine .pure hs' ⟨fun node hnode => ?_, nofun⟩
      obtain ⟨p, hp, rfl⟩ := List.mem_map.1 hnode
      exact ho p (Option.mem_toList.1 hp)
    · rintro w rfl
      exact hspec w rfl
  | _ => exact .pure hs ⟨fun node hnode => (by cases hnode), nofun⟩

end

end Host

end Scripting
