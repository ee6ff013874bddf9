import Scripting.Proofs.Session.Operand

/-!
The commands of a host that run no code.

Apart from those that add a class or define a virtual member, they keep the state sound and retain classes
and functions, however they end, and what the host is told exists.
-/

namespace Scripting.Host

open State Discipline

/-- The class and the name for which a command defines a virtual member. -/
def Command.defines? (r : Registers) : Command → Option (ClassId × String)
  | .method className name _ | .virtualMember className name _ => some (r.classId className, name)
  | _ => none

def Command.makesClass : Command → Bool
  | .newClass .. => true
  | _ => false

section
variable {r : Registers} {s : State} (hs : s.Sound) (hr : r.Sound s)
include hs

theorem upholds_classMember (c : ClassId) (name : String) :
    Eval.Upholds s (fun s' slot => ∀ i, slot = some i → s'.Has (.slot i)) (classMember c name) := by
  unfold classMember
  apply Eval.Upholds.survey
  cases hf : s.settle.method? c name with
  | none => exact .pure hs.settle fun i hi => by cases hi
  | some f =>
    have hvalue : s.settle.HasValue (.object f) :=
      hasValue_object.2 (hs.settle.closed.has_method hf)
    apply Eval.Upholds.update (s.settle.retains_addSlot _)
    refine .pure (hs.settle.addSlot hvalue) ?_
    rintro _ ⟨⟩
    simp [Has, State.addSlot]

theorem upholds_toObject {v : Value} (hv : s.HasValue v) :
    Eval.Upholds s (fun s' o => s'.HasValue (.object o)) (Eval.toObject v) :=
  .of_twin ((sound_lawful s).twin.toObject hs.twin_self ⟨rfl, hv⟩) fun _ _ h => h.2

theorem upholds_toReference {v : Value} (hv : s.HasValue v) :
    Eval.Upholds s (fun s' r => s'.HasValue (.reference r)) (Eval.toReference v) := by
  have hfail (fault : Fault) : Eval.Upholds s (fun s' r => s'.HasValue (.reference r))
      (Eval.fail fault) := hs.throwOf (hs.has_builtin (by decide)) fault.message
  unfold Eval.toReference
  cases v with
  | reference r => exact .pure hs hv
  | _ => exact hfail _

/-- A member that is a function of the host. -/
theorem upholds_defineFunction {o : ObjectId} (name : String) {f : Callback}
    (hf : ∀ name required, ∀ node ∈ (Payload.function (.native ⟨name, required, f⟩)).nodes,
      s.Has node) :
    Eval.Upholds s Told (do
      Eval.change (·.defineFunction o name f)
      return Reply.done) := by
  let callable : Callable := .native ⟨name, none, f⟩
  have hfunction : (s.newFunction callable).2.Sound := hs.newFunction (hf name none)
  have hvalue : (s.newFunction callable).2.HasValue (.object (s.newFunction callable).1) := by
    refine hasValue_object.2 ?_
    simp [Has, State.newFunction, State.addObject]
  have hnew : s.Retains (s.newFunction callable).2 := s.retains_addObject _
  have hretains := hnew.trans
    (retains_allocate _ o name (.object (s.newFunction callable).1) true)
  apply Eval.Upholds.change hretains
  exact .pure (hfunction.allocate hvalue o name true) (told_of_nodes rfl)

include hr

/-! The operands of a command, all of them plain, and what is done with what they stand for. -/

theorem upholds_first {v : Operand} {rest : List Operand}
    (hplain : ∀ w ∈ v :: rest, w.isPlain = true) :
    Eval.Upholds s State.HasValue (operand r v) :=
  upholds_operand hs hr (hplain v List.mem_cons_self)

theorem upholds_firstObject {v : Operand} {rest : List Operand}
    (hplain : ∀ w ∈ v :: rest, w.isPlain = true) :
    Eval.Upholds s (fun s' o => s'.Has (.object o)) (objectOperand r v) :=
  upholds_objectOperand hs hr (hplain v List.mem_cons_self)

theorem upholds_both {lhs rhs : Operand} (hplain : ∀ w ∈ [lhs, rhs], w.isPlain = true)
    {f : Value → Value → Eval Reply}
    (hf : ∀ left right s', s'.Sound → s'.HasValue left → s'.HasValue right →
      Eval.Upholds s' Told (f left right)) :
    Eval.Upholds s Told (do
      let left ← operand r lhs
      let right ← operand r rhs
      f left right) := by
  obtain ⟨hlhs, hrhs⟩ := List.forall_mem_cons.1 hplain
  apply (upholds_operand hs hr hlhs).bind
  intro left s₁ hs₁ hl₁ hleft
  apply (upholds_first hs₁ (hr.retain hl₁) hrhs).bind
  intro right s₂ hs₂ hl₂ hright
  exact hf left right s₂ hs₂ (hleft.retain hl₂) hright

/-- The first operand is turned into an object. -/
theorem upholds_objectAndValue {lhs rhs : Operand} (hplain : ∀ w ∈ [lhs, rhs], w.isPlain = true)
    {f : ObjectId → Value → Eval Reply}
    (hf : ∀ o value s', s'.Sound → s'.Has (.object o) → s'.HasValue value →
      Eval.Upholds s' Told (f o value)) :
    Eval.Upholds s Told (do
      let o ← objectOperand r lhs
      let value ← operand r rhs
      f o value) := by
  obtain ⟨hlhs, hrhs⟩ := List.forall_mem_cons.1 hplain
  apply (upholds_objectOperand hs hr hlhs).bind
  intro o s₁ hs₁ hl₁ ho
  apply (upholds_first hs₁ (hr.retain hl₁) hrhs).bind
  intro value s₂ hs₂ hl₂ hvalue
  exact hf o value s₂ hs₂ (hl₂.has _ ho) hvalue

theorem upholds_assignRegister (name : String) {v : Operand} (hv : v.isPlain = true) :
    Eval.Upholds s Told (assignRegister r name v) := by
  unfold assignRegister
  apply Eval.Upholds.bind (upholds_operand hs hr hv)
  intro value s₁ hs₁ hl₁ hvalue
  have htarget := (hr.retain hl₁).hasValue name
  generalize (r.values.find? name).getD .undefined = target at htarget ⊢
  cases target with
  | reference reference =>
    have L := sound_lawful s₁
    apply Eval.Upholds.bind (.of_keeps (L.assign hs₁.inv_self htarget hvalue))
    intro _ s₂ hs₂ hl₂ _
    exact .pure hs₂ (htarget.retain hl₂)
  | _ => exact .pure hs₁ (hs₁.closed.hasValue_deref hvalue)

end

/-! The commands, one family after the other. -/

section
variable {r : Registers} {s : State} {command : Command} (hs : s.Sound) (hr : r.Sound s)
  (hplain : ∀ v ∈ command.operands, v.isPlain = true)
include hs hr hplain

theorem upholds_classCommand (hnew : command.makesClass = false)
    (hdefines : command.defines? r = none) : Eval.Upholds s Told (classCommand r command) := by
  cases command with
  | newClass => cases hnew
  | method => cases hdefines
  | virtualMember => cases hdefines
  | classInfo name =>
    refine .pure hs fun node hnode => ?_
    rw [List.mem_singleton.1 hnode]
    exact hr.has_classId hs name
  | classMember className name =>
    exact upholds_told (upholds_classMember hs (r.classId className) name) fun _ _ => told_slot
  | derives name other =>
    apply Eval.Upholds.survey
    exact .pure hs.settle (told_of_nodes rfl)
  | wrapper name =>
    apply Eval.Upholds.update (s.retains_addObject _)
    refine .pure (hs.newWrapper (hr.has_classId hs name)) (List.forall_mem_singleton.2 ?_)
    simp [Has, State.newWrapper, State.addObject]
  | create name args =>
    apply (upholds_operands hs hr hplain).bind
    intro values s' hs' hl' hvalues
    exact upholds_told (hs'.construct ((hr.retain hl').has_classId hs' name) hvalues)
      fun _ _ => List.forall_mem_singleton.2
  | _ => exact .pure hs (told_of_nodes rfl)

theorem upholds_objectCommand (hfunction : ∀ f, command.function? = some f → f.isPlain = true) :
    Eval.Upholds s Told (objectCommand r command) := by
  cases command with
  | memberFunction object name function =>
    obtain ⟨hobject, hoperands⟩ := List.forall_mem_cons.1 hplain
    apply (upholds_objectOperand hs hr hobject).bind
    intro o s₁ hs₁ hl₁ _
    apply (upholds_callback hs₁ (hr.retain hl₁) hoperands (hfunction _ rfl)).bind
    intro f s₂ hs₂ _ hf
    exact upholds_defineFunction hs₂ name hf
  | native name required function =>
    apply (upholds_callback hs hr hplain (hfunction _ rfl)).bind
    intro f s₁ hs₁ _ hf
    apply Eval.Upholds.update (s₁.retains_addObject _)
    refine .pure (hs₁.newFunction (hf _ _)) (List.forall_mem_singleton.2 ?_)
    simp [Has, State.newFunction, State.addObject]
  | object className spec =>
    have hspec : ∀ parent, spec = .scope (some parent) → parent.isPlain = true := by
      rintro parent rfl
      exact hplain parent (by simp [Command.operands])
    apply (upholds_payload hs hr hspec).bind
    intro p s₁ hs₁ hl₁ hp
    have hobject : (s₁.addObject { classId := className.map r.classId, payload := p }).2.Sound := by
      refine hs₁.addObject rfl ?_ hp.1 ?_
      · intro c hc
        obtain ⟨name, -, rfl⟩ := Option.map_eq_some_iff.1 hc
        exact (hr.retain hl₁).has_classId hs₁ name
      · intro f hf
        unfold Object.callable? at hf
        split at hf
        · rename_i hpayload
          exact absurd hpayload (hp.2 _)
        · cases hf
    apply Eval.Upholds.update (s₁.retains_addObject _)
    refine .pure hobject (List.forall_mem_singleton.2 ?_)
    simp [Has, State.addObject]
  | exceptionObject className message =>
    obtain ⟨hsound, hretains, ho⟩ := hs.newException (hr.has_classId hs className) message
    apply Eval.Upholds.update hretains
    exact .pure hsound (List.forall_mem_singleton.2 ho)
  | member object name =>
    apply (upholds_firstObject hs hr hplain).bind
    intro o s₁ hs₁ _ ho
    have hmember := (sound_lawful s₁).twin.memberOf name hs₁.twin_self (hasValue_object.2 ho)
    apply Eval.Upholds.bind (Q := fun s' reference => s'.HasValue (.reference reference))
      (.of_twin hmember fun _ _ h => h.2)
    intro reference s₂ hs₂ hl₂ hreference
    exact .pure hs₂ (List.forall_mem_cons.2 ⟨hl₂.has _ ho, hreference⟩)
  | ownMember object name =>
    apply (upholds_firstObject hs hr hplain).bind
    intro o s₁ hs₁ _ ho
    apply Eval.Upholds.look
    exact .pure hs₁ (told_slot fun i hi => hs₁.closed.has_own hi)
  | peekMember object name =>
    apply (upholds_firstObject hs hr hplain).bind
    intro o s₁ hs₁ _ ho
    have hpeek := (sound_lawful s₁).twin.peekAt name hs₁.twin_self (hasValue_object.2 ho)
    refine upholds_told_of_twin hpeek fun s' slot hrel => told_slot ?_
    rintro i rfl
    cases hrel with
    | some h => exact (hasValue_reference.1 h.2).1
  | allocate object name v readOnly =>
    apply upholds_objectAndValue hs hr hplain
    intro o value s₁ hs₁ ho hvalue
    have hretains := s₁.retains_allocate o name value readOnly
    apply Eval.Upholds.update hretains
    refine .pure (hs₁.allocate hvalue o name readOnly) (List.forall_mem_cons.2 ⟨?_, ?_⟩)
    · simp [Has, State.allocate, State.addSlot, bindMember]
    · exact List.forall_mem_singleton.2 (hretains.has _ ho)
  | setMember object name v =>
    apply upholds_objectAndValue hs hr hplain
    intro o value s₁ hs₁ ho hvalue
    have hretains := s₁.retains_allocate o name value false
    apply Eval.Upholds.update hretains
    exact .pure (hs₁.allocate hvalue o name false) (List.forall_mem_singleton.2 (hretains.has _ ho))
  | inspect object =>
    exact upholds_told (upholds_firstObject hs hr hplain) fun _ _ => List.forall_mem_singleton.2
  | instanceOf object className =>
    apply (upholds_firstObject hs hr hplain).bind
    intro o s₁ hs₁ _ _
    apply Eval.Upholds.survey
    exact .pure hs₁.settle (told_of_nodes rfl)
  | _ => exact .pure hs (told_of_nodes rfl)

theorem upholds_valueCommand : Eval.Upholds s Told (valueCommand r command) := by
  cases command with
  | value v => exact upholds_told (upholds_first hs hr hplain) fun _ _ h => h
  | defineGlobal name v =>
    apply (upholds_first hs hr hplain).bind
    intro value s₁ hs₁ _ hvalue
    apply Eval.Upholds.change (s₁.retains_allocate s₁.global name value false)
    exact .pure (hs₁.allocate hvalue s₁.global name false) (told_of_nodes rfl)
  | newSlot register v name readOnly =>
    apply (upholds_first hs hr hplain).bind
    intro value s₁ hs₁ _ hvalue
    apply Eval.Upholds.update (s₁.retains_addSlot _)
    refine .pure (hs₁.addSlot hvalue) (List.forall_mem_singleton.2 ?_)
    simp [Has, State.addSlot]
  | reference slot container name =>
    apply Eval.Upholds.bind (upholds_optionalObject hs hr ?_)
    · intro o s₁ hs₁ hl₁ ho
      exact .pure hs₁ (hasValue_reference.2 ⟨(hr.retain hl₁).has_slotId slot, ho⟩)
    · rintro v rfl
      exact hplain v (by simp [Command.operands])
  | readSlot slot => exact .pure hs (List.forall_mem_singleton.2 (hr.has_slotId slot))
  | assign name v => exact upholds_assignRegister hs hr name (hplain v List.mem_cons_self)
  | describe v => exact upholds_told (upholds_first hs hr hplain) fun _ _ h => h
  | toInt v =>
    apply (upholds_first hs hr hplain).bind
    intro value s₁ hs₁ _ hvalue
    have hint := (sound_lawful s₁).twin.toInt hs₁.twin_self ⟨rfl, hvalue⟩
    exact upholds_told_of_twin hint fun _ _ _ => told_of_nodes rfl
  | toBool v =>
    apply (upholds_first hs hr hplain).bind
    intro value s₁ hs₁ _ _
    apply Eval.Upholds.look
    exact .pure hs₁ (told_of_nodes rfl)
  | toObject v =>
    apply (upholds_first hs hr hplain).bind
    intro value s₁ hs₁ _ hvalue
    exact upholds_told (upholds_toObject hs₁ hvalue) fun _ _ h => h
  | toReference v =>
    apply (upholds_first hs hr hplain).bind
    intro value s₁ hs₁ _ hvalue
    exact upholds_told (upholds_toReference hs₁ hvalue) fun _ _ h => h
  | toWritable v =>
    apply (upholds_first hs hr hplain).bind
    intro value s₁ hs₁ _ hvalue
    have hwritable := (sound_lawful s₁).twin.toWritableReference hs₁.twin_self ⟨rfl, hvalue⟩
    exact upholds_told_of_twin hwritable fun _ _ h => h.2
  | toPrimitive v hint =>
    apply (upholds_first hs hr hplain).bind
    intro value s₁ hs₁ _ hvalue
    apply (upholds_toObject hs₁ hvalue).bind
    intro o s₂ hs₂ _ ho
    have hprimitive := (sound_lawful s₂).twin.toPrimitive hint hs₂.twin_self ho
    exact upholds_told_of_twin hprimitive fun _ _ h => h.2
  | arguments args index default =>
    obtain ⟨hdefault, hargs⟩ := List.forall_mem_cons.1 hplain
    apply (upholds_operands hs hr hargs).bind
    intro values s₁ hs₁ hl₁ hvalues
    apply (upholds_operand hs₁ (hr.retain hl₁) hdefault).bind
    intro other s₂ hs₂ hl₂ hother
    have hvalues₂ : ∀ v ∈ values, s₂.HasValue v := fun v hv => (hvalues v hv).retain hl₂
    have hdefined : Eval.Upholds s₂ (fun _ _ => True) (Eval.isDefined values index) :=
      .of_twin ((sound_lawful s₂).twin.isDefined index hs₂.twin_self hvalues₂) fun _ _ _ => trivial
    apply hdefined.bind
    intro given s₃ hs₃ hl₃ _
    have hgetD (v : Value) (hv : s₂.HasValue v) : s₂.HasValue (values.getD index v) := by
      rw [List.getD_eq_getElem?_getD]
      cases hget : values[index]? with
      | none => exact hv
      | some value => exact hvalues₂ value (List.mem_of_getElem? hget)
    refine .pure hs₃ ?_
    intro node hnode
    obtain ⟨v, hv, hmem⟩ := List.mem_flatMap.1 hnode
    rcases List.mem_cons.1 hv with rfl | hv
    · exact hl₃.has _ (hgetD .undefined (hasValue_of_nodes rfl) node hmem)
    · rcases List.mem_cons.1 hv with rfl | hv
      · exact hl₃.has _ (hgetD other hother node hmem)
      · exact hl₃.has _ (hvalues₂ v hv node hmem)
  | _ => exact .pure hs (told_of_nodes rfl)

theorem upholds_operatorCommand : Eval.Upholds s Told (operatorCommand r command) := by
  cases command with
  | unary op v =>
    apply (upholds_first hs hr hplain).bind
    intro value s₁ hs₁ _ hvalue
    exact upholds_told (.of_keeps ((sound_lawful s₁).unary op hs₁.inv_self hvalue)) fun _ _ h => h
  | binary op lhs rhs =>
    apply upholds_both hs hr hplain
    intro left right s₁ hs₁ hleft hright
    have L := (sound_lawful s₁).twin
    exact upholds_told_of_twin (L.binary hs₁.twin_self ⟨rfl, hleft⟩ ⟨rfl, hright⟩ op)
      fun _ _ h => h.2
  | compare lhs rhs =>
    apply upholds_both hs hr hplain
    intro left right s₁ hs₁ hleft hright
    have L := (sound_lawful s₁).twin
    exact upholds_told_of_twin (L.compare hs₁.twin_self ⟨rfl, hleft⟩ ⟨rfl, hright⟩)
      fun _ _ _ => told_of_nodes rfl
  | objectAdd lhs rhs =>
    apply upholds_both hs hr hplain
    intro left right s₁ hs₁ hleft hright
    apply (upholds_toObject hs₁ hleft).bind
    intro o s₂ hs₂ hl₂ ho
    have L := (sound_lawful s₂).twin
    exact upholds_told_of_twin (L.operatorAdd hs₂.twin_self ho (hright.retain hl₂))
      fun _ _ h => h.2
  | objectCompare lhs rhs =>
    apply upholds_both hs hr hplain
    intro left right s₁ hs₁ hleft hright
    apply (upholds_toObject hs₁ hleft).bind
    intro o s₂ hs₂ hl₂ ho
    have L := (sound_lawful s₂).twin
    exact upholds_told_of_twin (L.operatorCompare hs₂.twin_self ho (hright.retain hl₂))
      fun _ _ _ => told_of_nodes rfl
  | objectSubscript lhs rhs =>
    apply upholds_both hs hr hplain
    intro left right s₁ hs₁ hleft hright
    apply (upholds_toObject hs₁ hleft).bind
    intro o s₂ hs₂ hl₂ ho
    have L := (sound_lawful s₂).twin
    exact upholds_told_of_twin (L.operatorSubscript hs₂.twin_self ho (hright.retain hl₂))
      fun _ _ h => h.2
  | _ => exact .pure hs (told_of_nodes rfl)

theorem upholds_frameCommand : Eval.Upholds s Told (frameCommand r command) := by
  have L := (sound_lawful s).twin
  cases command with
  | resolve name => exact upholds_told_of_twin (L.resolve name hs.twin_self) fun _ _ h => h.2
  | declare name v readOnly =>
    apply (upholds_first hs hr hplain).bind
    intro value s₁ hs₁ _ hvalue
    apply Eval.Upholds.update (s₁.retains_allocate s₁.currentScope name value readOnly)
    exact .pure (hs₁.allocate hvalue s₁.currentScope name readOnly) (told_of_nodes rfl)
  | push frame =>
    cases frame with
    | call name receiver =>
      apply Eval.Upholds.bind (Q := fun _ _ => True)
      · apply Eval.Upholds.bind (upholds_optionalObject hs hr ?_)
        · intro o s₁ hs₁ _ ho
          obtain ⟨hpush, hretains⟩ := hs₁.pushCall name ho
          exact ⟨hpush, hretains, trivial⟩
        · rintro v rfl
          exact hplain v (by simp [Command.operands])
      · intro _ s₂ hs₂ _ _
        exact .pure hs₂ (told_of_nodes rfl)
    | global name =>
      obtain ⟨hpush, hretains⟩ := hs.pushGlobal name
      apply Eval.Upholds.change hretains
      exact .pure hpush (told_of_nodes rfl)
    | block =>
      obtain ⟨hpush, hretains⟩ := hs.pushBlock
      apply Eval.Upholds.change hretains
      exact .pure hpush (told_of_nodes rfl)
  | pop =>
    obtain ⟨hpop, hretains⟩ := hs.popFrame
    apply Eval.Upholds.change hretains
    exact .pure hpop (told_of_nodes rfl)
  | close output errorOutput =>
    have hclose : State.Sound { s with
        output.closed := output, errorOutput.closed := errorOutput } ∧ s.Retains { s with
        output.closed := output, errorOutput.closed := errorOutput } :=
      hs.outside ⟨_, _, _, _, rfl⟩ (fun _ => .inl) fun _ => .inl
    apply Eval.Upholds.change hclose.2
    exact .pure hclose.1 (told_of_nodes rfl)
  | write text toErrors =>
    cases toErrors with
    | true =>
      exact upholds_told_of_twin (L.writeError text hs.twin_self) fun _ _ _ => told_of_nodes rfl
    | false =>
      exact upholds_told_of_twin (L.writeText text hs.twin_self) fun _ _ _ => told_of_nodes rfl
  | _ => exact .pure hs (told_of_nodes rfl)

end

end Scripting.Host
