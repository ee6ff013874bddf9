import Scripting.Proofs.Lockstep.Sight
import Scripting.Proofs.Path

/-!
Global names at top level and inside functions.

At top level the chain of scopes ends in the global object, and an own member of it is found on the way.
Inside a function the chain ends before, and the name is looked up as a member of the global object:
there a virtual member of its class comes first. A name that is both is therefore ambiguous, unless its
own slot is a read-only copy of the virtual member.

Main statement: a global name means the same in both places exactly if it is not ambiguous
(`global_name_agrees`).
-/

namespace Scripting

namespace State

/-- The same state, with other frames on the stack. -/
def onStack (s : State) (frames : List Frame) : State :=
  { s with frames := frames }

/-- At most `n` scopes, from `scope` outwards. -/
def scopesUpTo (s : State) : Nat → ObjectId → List ObjectId
  | 0, _ => []
  | n + 1, scope =>
    scope :: match (s.object scope).parentScope? with
      | some parent => s.scopesUpTo n parent
      | none => []

/-- The chain of scopes in which an identifier is looked up, the innermost first. -/
def scopes (s : State) : List ObjectId :=
  s.scopesUpTo (s.objects.size + 1) s.currentScope

/-- No local scope of the chain has a name of its own. -/
def NotLocal (s : State) (name : String) : Prop :=
  ∀ scope ∈ s.scopes, scope ≠ s.global → s.own? scope name = none

/-- If the global object has both an own and a virtual member of a name, the own one is a read-only
copy of the other. -/
def Unambiguous (s : State) (name : String) : Prop :=
  ∀ i f, s.own? s.global name = some i → s.objectMethod? s.global name = some f →
    (s.slot i).value = .object f ∧ (s.slot i).readOnly = true

/-- The slot that a lookup led to. -/
def slotOf (found : Reference × State) : Slot :=
  found.2.slot found.1.slot

/-- Two lookups led to slots with the same value, and both or neither can be written. -/
def SameSlot (found found' : Reference × State) : Prop :=
  (slotOf found).value = (slotOf found').value ∧ (slotOf found).readOnly = (slotOf found').readOnly

variable {s : State} {name : String}

/-! The chain of scopes. -/

theorem findScope_eq_findSome? (name : String) (n : Nat) (scope : ObjectId) :
    s.findScope name n scope =
      (s.scopesUpTo n scope).findSome? fun o => (s.own? o name).map (o, ·) := by
  induction n generalizing scope with
  | zero => rfl
  | succ n ih =>
    unfold findScope scopesUpTo
    rw [List.findSome?_cons]
    cases s.own? scope name with
    | some i => rfl
    | none =>
      cases (s.object scope).parentScope? with
      | some parent => exact ih parent
      | none => rfl

/-- A global name is found in the chain only where the chain leads to the global object. -/
theorem NotLocal.findScope (h : s.NotLocal name) :
    s.findScope name (s.objects.size + 1) s.currentScope =
      if s.global ∈ s.scopes then (s.own? s.global name).map (s.global, ·) else none := by
  rw [findScope_eq_findSome?]
  change s.scopes.findSome? _ = _
  unfold NotLocal at h
  generalize s.scopes = chain at h ⊢
  induction chain with
  | nil => rfl
  | cons scope rest ih =>
    have hrest := ih fun o ho => h o (List.mem_cons_of_mem _ ho)
    by_cases hscope : scope = s.global
    · subst hscope
      rw [List.findSome?_cons, if_pos List.mem_cons_self]
      cases hown : s.own? s.global name with
      | some i => rfl
      | none =>
        simp only [Option.map_none]
        rw [hrest, hown]
        split <;> rfl
    · have hown := h scope List.mem_cons_self hscope
      simp only [List.findSome?_cons, hown, Option.map_none, List.mem_cons, Ne.symm hscope, false_or]
      exact hrest

theorem NotLocal.resolve_of_mem (h : s.NotLocal name) (hglobal : s.global ∈ s.scopes) :
    s.resolve name =
      match s.own? s.global name with
      | some i => (⟨i, some s.global, some name⟩, s)
      | none => s.member s.global name := by
  rw [resolve, h.findScope, if_pos hglobal]
  cases s.own? s.global name with
  | some i => simp
  | none => rfl

theorem NotLocal.resolve_of_not_mem (h : s.NotLocal name) (hglobal : s.global ∉ s.scopes) :
    s.resolve name = s.member s.global name := by
  rw [resolve, h.findScope, if_neg hglobal]

/-! Members on other stacks. -/

theorem objectMethod?_onStack (frames : List Frame) (o : ObjectId) (name : String) :
    (s.onStack frames).objectMethod? o name = s.objectMethod? o name :=
  s.objectMethod?_congr (s.onStack frames) rfl rfl name

theorem member_onStack (frames : List Frame) (o : ObjectId) (name : String) :
    (s.onStack frames).member o name =
      ((s.member o name).1, (s.member o name).2.onStack frames) := by
  have hmethod := s.objectMethod?_onStack frames o name
  cases hf : s.objectMethod? o name with
  | some f =>
    rw [member_of_method hf, member_of_method (hmethod.trans hf)]
    rfl
  | none =>
    have hown : (s.onStack frames).own? o name = s.own? o name := rfl
    cases hi : s.own? o name with
    | some i => rw [member_of_own hf hi, member_of_own (hmethod.trans hf) (hown.trans hi)]
    | none =>
      rw [member_of_absent hf hi, member_of_absent (hmethod.trans hf) (hown.trans hi)]
      rfl

/-! Lookups on two stacks. -/

variable {f g : List Frame}

/-- Without a virtual member of that name, the lookup does not depend on the stack. -/
theorem NotLocal.resolve_onStack (h : (s.onStack f).NotLocal name)
    (hmethod : s.objectMethod? s.global name = none) :
    (s.onStack f).resolve name =
      ((s.member s.global name).1, (s.member s.global name).2.onStack f) := by
  rw [← member_onStack]
  by_cases hmem : (s.onStack f).global ∈ (s.onStack f).scopes
  · rw [h.resolve_of_mem hmem]
    cases hown : (s.onStack f).own? (s.onStack f).global name with
    | some i => exact (member_of_own ((objectMethod?_onStack f _ name).trans hmethod) hown).symm
    | none => rfl
  · exact h.resolve_of_not_mem hmem

/-- The lookups at top level and inside a function lead to the same slot, or to slots that look the
same, exactly if the name is not ambiguous. -/
theorem sameSlot_resolve_iff (htop : s.NotLocal name) (hmem : s.global ∈ s.scopes)
    (hcall : (s.onStack f).NotLocal name) (hapart : (s.onStack f).global ∉ (s.onStack f).scopes) :
    SameSlot (s.resolve name) ((s.onStack f).resolve name) ↔ s.Unambiguous name := by
  rw [htop.resolve_of_mem hmem, hcall.resolve_of_not_mem hapart, member_onStack]
  change SameSlot _ ((s.member s.global name).1, (s.member s.global name).2.onStack f) ↔ _
  cases hown : s.own? s.global name with
  | none =>
    constructor
    · intro _ i f hi
      rw [hown] at hi
      cases hi
    · intro _
      exact ⟨rfl, rfl⟩
  | some i =>
    cases hmethod : s.objectMethod? s.global name with
    | none =>
      rw [member_of_own hmethod hown]
      constructor
      · intro _ j f _ hf
        rw [hmethod] at hf
        cases hf
      · intro _
        exact ⟨rfl, rfl⟩
    | some function =>
      -- inside the function the virtual member is handed out in a fresh slot
      rw [member_of_method hmethod]
      have hfresh : (s.addSlot ⟨.object function, true, some name⟩).2.slot ⟨s.slots.size⟩ =
          ⟨.object function, true, some name⟩ := by
        rw [slot_addSlot, if_pos rfl]
      change (s.slot i).value = ((s.addSlot _).2.slot ⟨s.slots.size⟩).value ∧
        (s.slot i).readOnly = ((s.addSlot _).2.slot ⟨s.slots.size⟩).readOnly ↔ _
      rw [hfresh]
      constructor
      · rintro h j f hj hf
        cases hown.symm.trans hj
        cases hmethod.symm.trans hf
        exact h
      · intro h
        exact h i function hown hmethod

/-! What an assignment on one stack leaves for the other. -/

/-- A state in which the own members of all other objects and the chains of scopes are as before. -/
structure KeepsScopes (s s' : State) : Prop where
  global : s'.global = s.global
  size : s'.objects.size = s.objects.size
  payload : ∀ o, (s'.object o).payload = (s.object o).payload
  own : ∀ o name, o ≠ s.global → s'.own? o name = s.own? o name

theorem KeepsScopes.scopesUpTo {s' : State} (h : s.KeepsScopes s') (n : Nat) (scope : ObjectId) :
    s'.scopesUpTo n scope = s.scopesUpTo n scope := by
  induction n generalizing scope with
  | zero => rfl
  | succ n ih =>
    have hparent : (s'.object scope).parentScope? = (s.object scope).parentScope? := by
      simp only [Object.parentScope?, h.payload]
    simp only [State.scopesUpTo, hparent, ih]

theorem KeepsScopes.notLocal {s' : State} (h : s.KeepsScopes s')
    (hlocal : (s.onStack f).NotLocal name) : (s'.onStack f).NotLocal name := by
  have hcurrent : (s'.onStack f).currentScope = (s.onStack f).currentScope := by
    unfold currentScope
    cases f with
    | nil => exact h.global
    | cons frame rest => rfl
  have hkeeps : (s.onStack f).KeepsScopes (s'.onStack f) :=
    ⟨h.global, h.size, h.payload, h.own⟩
  have hscopes : (s'.onStack f).scopes = (s.onStack f).scopes := by
    unfold scopes
    rw [hcurrent, hkeeps.size, hkeeps.scopesUpTo]
  intro scope hscope hne
  rw [hscopes] at hscope
  have hne' : scope ≠ s.global := fun heq => hne (heq.trans h.global.symm)
  exact (h.own scope name hne').trans (hlocal scope hscope hne')

theorem keepsScopes_allocate_global (s : State) (name : String) (v : Value) (readOnly : Bool) :
    s.KeepsScopes (s.allocate s.global name v readOnly).2 where
  global := rfl
  size := by simp [allocate, addSlot, bindMember]
  payload o := payload_allocate s s.global o name v readOnly
  own o name' hne := by rw [own?, own?, object_allocate_of_ne s hne]

/-- An assignment that succeeds writes what is behind the value. -/
theorem eq_of_assign {r : Reference} {v : Value} {s' : State} (h : Eval.assign r v s = .ok () s') :
    (s.slot r.slot).readOnly = false ∧ s' = s.writeSlot r.slot (s.deref v) := by
  cases hreadOnly : (s.slot r.slot).readOnly with
  | true =>
    rw [Eval.assign_of_readOnly hreadOnly] at h
    cases h
  | false =>
    rw [Eval.assign_of_writable hreadOnly] at h
    cases h
    exact ⟨rfl, rfl⟩

/-- If what an unambiguous name stands for can be written, there is no virtual member of that name. -/
theorem Unambiguous.method_eq_none (h : s.Unambiguous name) (hlocal : (s.onStack f).NotLocal name)
    (hwritable : (slotOf ((s.onStack f).resolve name)).readOnly = false) :
    s.objectMethod? s.global name = none := by
  cases hmethod : s.objectMethod? s.global name with
  | none => rfl
  | some function =>
    have hvirtual : (slotOf ((s.onStack f).member s.global name)).readOnly = true := by
      rw [member_of_method ((objectMethod?_onStack f _ name).trans hmethod)]
      change ((s.addSlot _).2.slot ⟨s.slots.size⟩).readOnly = true
      rw [slot_addSlot, if_pos rfl]
    by_cases hmem : (s.onStack f).global ∈ (s.onStack f).scopes
    · rw [hlocal.resolve_of_mem hmem] at hwritable
      cases hown : (s.onStack f).own? (s.onStack f).global name with
      | some i =>
        rw [hown] at hwritable
        have hcopy := (h i function hown hmethod).2
        exact absurd (hcopy.symm.trans hwritable) (by simp)
      | none =>
        rw [hown] at hwritable
        exact absurd (hvirtual.symm.trans hwritable) (by simp)
    · rw [hlocal.resolve_of_not_mem hmem] at hwritable
      exact absurd (hvirtual.symm.trans hwritable) (by simp)

/-- What is assigned to an unambiguous global name on one stack is read on any other. -/
theorem Unambiguous.read_of_assign (h : s.Unambiguous name)
    (hglobal : s.global.index < s.objects.size)
    (hslots : ∀ i, s.own? s.global name = some i → i.index < s.slots.size)
    (hf : (s.onStack f).NotLocal name) (hg : (s.onStack g).NotLocal name) {v : Value} {s' : State}
    (hassign : Eval.assign ((s.onStack f).resolve name).1 v ((s.onStack f).resolve name).2 =
      .ok () s') :
    (slotOf ((s'.onStack g).resolve name)).value = ((s.onStack f).resolve name).2.deref v := by
  obtain ⟨hwritable, rfl⟩ := eq_of_assign hassign
  have hmethod := h.method_eq_none hf hwritable
  rw [hf.resolve_onStack hmethod]
  -- the state after the lookup, in which the own member exists
  obtain ⟨i, s₁, hmember, hsize, hown, hmethod₁, hkeeps⟩ :
      ∃ i s₁, s.member s.global name = (⟨i, some s.global, some name⟩, s₁) ∧
        i.index < s₁.slots.size ∧ s₁.own? s₁.global name = some i ∧
        s₁.objectMethod? s₁.global name = none ∧ s.KeepsScopes s₁ := by
    cases hown : s.own? s.global name with
    | some i =>
      exact ⟨i, s, member_of_own hmethod hown, hslots i hown, hown, hmethod, rfl, rfl,
        fun _ => rfl, fun _ _ _ => rfl⟩
    | none =>
      refine ⟨⟨s.slots.size⟩, _, member_of_absent hmethod hown, ?_, ?_, ?_, ?_⟩
      · simp [allocate, addSlot, bindMember]
      · change ((s.addSlot _).2.bindMember s.global name _).own? s.global name = _
        rw [own?_bindMember, if_pos ⟨rfl, hglobal, rfl⟩]
      · exact (s.objectMethod?_congr (s.allocate s.global name .undefined false).2 rfl
          (classId_allocate s s.global s.global name _ _) name).trans hmethod
      · exact keepsScopes_allocate_global s name .undefined false
  rw [hmember]
  generalize (s₁.onStack f).deref v = value
  -- the other stack finds the slot that was written
  let s₂ := s₁.writeSlot i value
  have hlocal : (s₂.onStack g).NotLocal name := by
    apply KeepsScopes.notLocal _ hg
    exact ⟨hkeeps.global, hkeeps.size, hkeeps.payload, hkeeps.own⟩
  have hmethod₂ : s₂.objectMethod? s₂.global name = none :=
    (s₁.objectMethod?_congr s₂ rfl rfl name).trans hmethod₁
  change (slotOf ((s₂.onStack g).resolve name)).value = value
  rw [hlocal.resolve_onStack hmethod₂, member_of_own hmethod₂ hown]
  change (s₂.slot i).value = value
  rw [slot_writeSlot, if_pos ⟨rfl, hsize⟩]

end State

/-- At top level and inside a function a global name leads to slots with the same value that both or
neither can be written, exactly if it is not ambiguous. What is then assigned in one place is read in
the other. -/
theorem global_name_agrees {s : State} {name : String} {frames : List Frame}
    (htop : s.NotLocal name) (hmem : s.global ∈ s.scopes)
    (hcall : (s.onStack frames).NotLocal name) (hapart : s.global ∉ (s.onStack frames).scopes)
    (hglobal : s.global.index < s.objects.size)
    (hslots : ∀ i, s.own? s.global name = some i → i.index < s.slots.size) :
    (State.SameSlot (s.resolve name) ((s.onStack frames).resolve name) ↔ s.Unambiguous name) ∧
      (s.Unambiguous name → ∀ (v : Value) (s' : State),
        (Eval.assign (s.resolve name).1 v (s.resolve name).2 = .ok () s' →
          (State.slotOf ((s'.onStack frames).resolve name)).value = (s.resolve name).2.deref v) ∧
        (Eval.assign ((s.onStack frames).resolve name).1 v ((s.onStack frames).resolve name).2 =
            .ok () s' →
          (State.slotOf ((s'.onStack s.frames).resolve name)).value =
            ((s.onStack frames).resolve name).2.deref v)) := by
  refine ⟨State.sameSlot_resolve_iff htop hmem hcall hapart, ?_⟩
  intro h v s'
  constructor
  · exact h.read_of_assign hglobal hslots htop hcall
  · exact h.read_of_assign hglobal hslots hcall htop

/-- A call of `f` in a new interpreter in which `n` is a global name with the value 1; the frame of the
call is taken off again. -/
def State.afterCall : State :=
  (((State.initial default).defineGlobal "n" (.int 1)).pushCall "f" none).popFrame

/-- The stack while that call ran. -/
def State.duringCall : List Frame :=
  (((State.initial default).defineGlobal "n" (.int 1)).pushCall "f" none).frames

/-- Inside the call `n` is found with the value 1, and when 2 is assigned to it there, 2 is read at top
level. -/
theorem global_name_agrees_assigned :
    State.SameSlot (State.afterCall.resolve "n")
        ((State.afterCall.onStack State.duringCall).resolve "n") ∧
      ∃ s', Eval.assign ((State.afterCall.onStack State.duringCall).resolve "n").1 (.int 2)
          ((State.afterCall.onStack State.duringCall).resolve "n").2 = .ok () s' ∧
        (State.slotOf ((s'.onStack State.afterCall.frames).resolve "n")).value = .int 2 := by
  have hmethod : State.afterCall.objectMethod? State.afterCall.global "n" = none := by decide +kernel
  have hclear : State.afterCall.Unambiguous "n" := by
    intro i f _ hf
    rw [hmethod] at hf
    cases hf
  have htop : State.afterCall.NotLocal "n" := by
    unfold State.NotLocal
    decide +kernel
  have hcall : (State.afterCall.onStack State.duringCall).NotLocal "n" := by
    unfold State.NotLocal
    decide +kernel
  have hslots : ∀ i, State.afterCall.own? State.afterCall.global "n" = some i →
      i.index < State.afterCall.slots.size := by
    intro i hi
    have hsome : (State.afterCall.own? State.afterCall.global "n").all
        (·.index < State.afterCall.slots.size) = true := by decide +kernel
    rw [hi] at hsome
    simpa using hsome
  have h := global_name_agrees htop (by decide +kernel) hcall (by decide +kernel) (by decide +kernel)
    hslots
  refine ⟨h.1.2 hclear, _, rfl, ?_⟩
  exact (h.2 hclear (.int 2) _).2 rfl

/-- The same interpreter, in which the host has added a virtual member `n` to the class of the global
object. -/
def State.ambiguous : State :=
  State.afterCall.defineMethod .global "n" (.host .argumentCount)

/-- An ambiguous name: at top level it is a variable with the value 1, and inside a function it is the
virtual member, which cannot be written. What is assigned at top level is not seen in the function. -/
theorem global_name_ambiguous :
    State.ambiguous.NotLocal "n" ∧ State.ambiguous.global ∈ State.ambiguous.scopes ∧
      (State.ambiguous.onStack State.duringCall).NotLocal "n" ∧
      State.ambiguous.global ∉ (State.ambiguous.onStack State.duringCall).scopes ∧
      ¬State.SameSlot (State.ambiguous.resolve "n")
        ((State.ambiguous.onStack State.duringCall).resolve "n") ∧
      ∃ s', Eval.assign (State.ambiguous.resolve "n").1 (.int 2) (State.ambiguous.resolve "n").2 =
          .ok () s' ∧
        (State.slotOf ((s'.onStack State.duringCall).resolve "n")).value ≠ .int 2 := by
  unfold State.NotLocal State.SameSlot
  refine ⟨by decide +kernel, by decide +kernel, by decide +kernel, by decide +kernel,
    by decide +kernel, _, rfl, by decide +kernel⟩

end Scripting
