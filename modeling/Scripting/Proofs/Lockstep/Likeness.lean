import Scripting.Proofs.Lockstep.Run

/-!
Two runs that go through the same values.

Their states differ at most in the code of the functions and in the files that are known. What is looked
up, shown and settled in such states is the same, so the two runs are in lockstep
(`Likeness.Lawful.lockstep`).
-/

namespace Scripting

/-- Two objects that differ at most in the code of a function. -/
structure Object.Resembles (r : FunctionDef → FunctionDef → Prop) (object object' : Object) :
    Prop where
  classId : object.classId = object'.classId
  members : object.members = object'.members
  payload : object.payload.Pairs r object'.payload

/-- What a state has besides its objects and files. -/
def State.remainder (s : State) : State :=
  { s with objects := #[], files := default }

/-- A state is its objects, its files and the rest. -/
theorem State.eq_of_remainder {s t : State} (h : s.remainder = t.remainder)
    (hsize : s.objects.size = t.objects.size) (hobject : ∀ o, s.object o = t.object o)
    (hfiles : s.files = t.files) : s = t := by
  have hobjects : s.objects = t.objects := by
    apply Array.ext hsize
    intro i hs ht
    simpa [State.object, hs, ht] using hobject ⟨i⟩
  calc s = { s.remainder with objects := s.objects, files := s.files } := rfl
    _ = { t.remainder with objects := t.objects, files := t.files } := by rw [h, hobjects, hfiles]
    _ = t := rfl

/-- A change that leaves the objects and the files as they are and does not depend on them. -/
def State.Beside (f : State → State) : Prop :=
  ∀ s, (f s).remainder = f s.remainder ∧ (f s).objects = s.objects ∧ (f s).files = s.files

/-- Two states that differ at most in the code of functions and in their files. -/
structure State.Resembles (r : FunctionDef → FunctionDef → Prop) (known : Files → Files → Prop)
    (s t : State) : Prop where
  remainder : s.remainder = t.remainder
  size : s.objects.size = t.objects.size
  object : ∀ o, (s.object o).Resembles r (t.object o)
  files : known s.files t.files

theorem Payload.Pairs.imp {r r' : FunctionDef → FunctionDef → Prop} {x y : Payload}
    (h : x.Pairs r y) (hr : ∀ {f f'}, r f f' → r' f f') : x.Pairs r' y := by
  cases h with
  | other _ h => exact .other _ h
  | function h =>
    cases h with
    | native f => exact .function (.native f)
    | script h => exact .function (.script (hr h))

theorem Payload.Pairs.nodes {r : FunctionDef → FunctionDef → Prop} {x y : Payload}
    (h : x.Pairs r y) : x.nodes = y.nodes := by
  cases h with
  | function h => cases h <;> rfl
  | other _ _ => rfl

namespace State.Resembles

variable {r : FunctionDef → FunctionDef → Prop} {known : Files → Files → Prop} {s t : State}
  (h : s.Resembles r known t)
include h

/-- What depends neither on the objects nor on the files is the same. -/
theorem eq {α : Type} (f : State → α) (hf : ∀ u, f u.remainder = f u) : f s = f t := by
  rw [← hf s, h.remainder, hf]

theorem classes : s.classes = t.classes :=
  h.eq State.classes fun _ => rfl

theorem slots : s.slots = t.slots :=
  h.eq State.slots fun _ => rfl

theorem slot (i : SlotId) : s.slot i = t.slot i :=
  h.eq (·.slot i) fun _ => rfl

/-! What is looked up. -/

theorem followUpTo (n : Nat) (v : Value) : s.followUpTo n v = t.followUpTo n v := by
  induction n generalizing v with
  | zero => cases v <;> rfl
  | succ n ih =>
    cases v with
    | reference r => rw [State.followUpTo, State.followUpTo, h.slot, ih]
    | _ => rfl

theorem deref (v : Value) : s.deref v = t.deref v := by
  rw [State.deref, State.deref, h.slots, h.followUpTo]

theorem own? (o : ObjectId) (name : String) : s.own? o name = t.own? o name := by
  rw [State.own?, State.own?, (h.object o).members]

theorem findScope (name : String) (n : Nat) (scope : ObjectId) :
    s.findScope name n scope = t.findScope name n scope := by
  induction n generalizing scope with
  | zero => rfl
  | succ n ih =>
    have hparent : (s.object scope).parentScope? = (t.object scope).parentScope? :=
      (h.object scope).payload.eq (f := fun payload => Object.parentScope? { payload })
        fun _ _ => rfl
    simp only [State.findScope, h.own?, hparent, ih]

/-! What is settled. -/

theorem heldBy : s.heldBy = t.heldBy := by
  funext node
  cases node with
  | object o =>
    simp only [State.heldBy, (h.object o).classId, (h.object o).members, (h.object o).payload.nodes]
  | slot i => simp only [State.heldBy, h.slot]
  | «class» c => simp only [State.heldBy, classInfo_congr h.classes]

theorem nodeNumber : s.nodeNumber = t.nodeNumber := by
  funext node
  cases node <;> simp only [State.nodeNumber, h.size, h.slots]

theorem nodeCount : s.nodeCount = t.nodeCount := by
  rw [State.nodeCount, State.nodeCount, h.size, h.slots, h.classes]

theorem add : Found.add s = Found.add t := by
  funext found node
  simp only [Found.add, h.nodeNumber]

theorem unreachedUpTo (n : Nat) (found : Found) (goals : List Node) :
    s.unreachedUpTo n found goals = t.unreachedUpTo n found goals := by
  induction n generalizing found goals with
  | zero => rfl
  | succ n ih =>
    simp only [State.unreachedUpTo, Found.next, h.nodeNumber, h.heldBy, h.add, ih]

theorem unreached (goals : List Node) : s.unreached goals = t.unreached goals := by
  simp only [State.unreached, h.nodeCount, h.add, h.eq State.roots fun _ => rfl, h.unreachedUpTo]

theorem allNodes : s.allNodes = t.allNodes := by
  rw [State.allNodes, State.allNodes, h.size, h.slots, h.classes]

theorem releaseUpTo (n : Nat) (ended : List Node) (counts : Array Nat) :
    s.releaseUpTo n ended counts = t.releaseUpTo n ended counts := by
  have hrelease : s.releaseHold = t.releaseHold := by
    funext released node
    simp only [releaseHold, h.nodeNumber]
  induction n generalizing ended counts with
  | zero => rfl
  | succ n ih =>
    cases ended with
    | nil => rfl
    | cons node ended => simp only [State.releaseUpTo, hrelease, h.heldBy, ih]

theorem remainingHolds : s.remainingHolds = t.remainingHolds := by
  have hcount : s.countHolds = t.countHolds := by
    funext counts nodes
    simp only [countHolds, h.nodeNumber]
  have hcounts : s.holdCounts = t.holdCounts := by
    simp only [holdCounts, hcount, h.allNodes, h.heldBy, h.nodeCount, h.eq State.roots fun _ => rfl]
  simp only [State.remainingHolds, hcounts, h.allNodes, h.nodeNumber, h.nodeCount, h.releaseUpTo]

/-! Changes of both states. -/

/-- The same change of what is neither an object nor a file. -/
theorem adjust {f : State → State} (hf : State.Beside f) : (f s).Resembles r known (f t) where
  remainder := by rw [(hf s).1, (hf t).1, h.remainder]
  size := by rw [(hf s).2.1, (hf t).2.1, h.size]
  object o := by
    rw [State.object, State.object, (hf s).2.1, (hf t).2.1]
    exact h.object o
  files := by
    rw [(hf s).2.2, (hf t).2.2]
    exact h.files

theorem addObject {x x' : Object} (ho : x.Resembles r x') :
    (s.addObject x).2.Resembles r known (t.addObject x').2 where
  remainder := h.remainder
  size := by simp [State.addObject, h.size]
  object o := by
    rw [object_addObject, object_addObject, h.size]
    split
    · exact ho
    · exact h.object o
  files := h.files

/-- The same change of an object in both states. -/
theorem modify (o : ObjectId) (f : Object → Object)
    (hf : ∀ {x y}, x.Resembles r y → (f x).Resembles r (f y)) :
    ({ s with objects := s.objects.modify o.index f } : State).Resembles r known
      { t with objects := t.objects.modify o.index f } where
  remainder := h.remainder
  size := by simp [h.size]
  object o' := by
    rw [object_modify, object_modify, h.size]
    split
    · exact hf (h.object o')
    · exact h.object o'
  files := h.files

theorem allocate (o : ObjectId) (name : String) (v : Value) (readOnly : Bool) :
    (s.allocate o name v readOnly).2.Resembles r known (t.allocate o name v readOnly).2 := by
  have hslot := h.adjust (f := fun u => (u.addSlot ⟨v, readOnly, some name⟩).2)
    fun _ => ⟨rfl, rfl, rfl⟩
  have hid : (s.addSlot ⟨v, readOnly, some name⟩).1 = (t.addSlot ⟨v, readOnly, some name⟩).1 := by
    rw [addSlot, addSlot, h.slots]
  unfold State.allocate
  dsimp only
  rw [hid]
  exact hslot.modify o _ fun hx => ⟨hx.classId, by rw [hx.members], hx.payload⟩

theorem settleAmong (classes : List ClassId) :
    (s.settleAmong classes).Resembles r known (t.settleAmong classes) := by
  have hfold : ∀ (counts : Array Nat) (ended : List ClassId) {s t : State},
      s.Resembles r known t → (ended.foldl (settleUnreached counts) s).Resembles r known
        (ended.foldl (settleUnreached counts) t) := by
    intro counts ended
    induction ended with
    | nil => exact id
    | cons c ended ih =>
      intro s t h
      refine ih ?_
      have hmortal := h.adjust (f := fun u => { u with mortal := u.mortal.filter (· ≠ c) })
        fun _ => ⟨rfl, rfl, rfl⟩
      simp only [settleUnreached, h.nodeNumber]
      split
      · exact hmortal.adjust (f := (·.endLife c)) fun _ => ⟨rfl, rfl, rfl⟩
      · exact hmortal
  simp only [State.settleAmong, h.eq State.mortal fun _ => rfl, h.unreached, h.remainingHolds]
  split
  · exact h
  · split
    · exact h
    · exact hfold _ _ h

end State.Resembles

/-! Runs in states that resemble each other. -/

/-- How the code and the files of two runs may differ. -/
structure Likeness where
  expr : Expr → Expr → Prop
  stmt : Stmt → Stmt → Prop
  code : FunctionDef → FunctionDef → Prop
  files : Files → Files → Prop
  lacks : String → Prop := fun _ => False

namespace Likeness

variable {K : Likeness}

structure Lawful (K : Likeness) : Prop where
  expr_pairs : ∀ {e e'}, K.expr e e' → e.Pairs K.expr K.stmt e'
  stmt_pairs : ∀ {statement statement'}, K.stmt statement statement' →
    statement.Pairs K.expr K.stmt statement'
  expr_code : ∀ {span span' f f'}, K.expr (.function span f) (.function span' f') → K.code f f'
  stmt_code : ∀ {span span' f f'}, K.stmt (.function span f) (.function span' f') → K.code f f'
  code_pairs : ∀ {f f'}, K.code f f' → f.Pairs K.stmt f'
  stmt_refl : ∀ statement, K.stmt statement statement
  code_refl : ∀ f, K.code f f
  read : ∀ {files files'} path, K.files files files' → files.read path = files'.read path ∨
    files.read path = none ∧ K.lacks path

def lockstep (K : Likeness) : Lockstep where
  inv σ := σ.left.Resembles K.code K.files σ.right
  leads _ _ := True
  good _ v v' := v = v'
  stored _ _ := True
  raised _ _ := True
  expr := K.expr
  stmt := K.stmt
  code := K.code
  host _ := True
  lacks := K.lacks

theorem Lawful.sighted (L : K.Lawful) : K.lockstep.Sighted where
  good_of_stored _ := rfl
  classes h := h.classes
  classId h _ := (h.object _).classId
  payload h _ := (h.object _).payload.imp L.code_pairs
  deref h hv := by
    obtain rfl := hv
    exact h.deref _
  stored_deref _ _ := trivial

section

variable (L : K.Lawful) {s t : State} (h : s.Resembles K.code K.files t)
include L h

/-! What is shown. -/

theorem dumpWith_eq (visiting : List ObjectId) (members : ObjectId → String) (n : Nat) (v : Value) :
    s.dumpWith visiting members n v = t.dumpWith visiting members n v := by
  have htype : s.typeName = t.typeName := funext fun o => L.sighted.typeName (σ := ⟨s, t⟩) h trivial
  induction n generalizing v with
  | zero =>
    unfold State.dumpWith
    cases v <;> simp only [htype]
  | succ n ih =>
    unfold State.dumpWith
    cases v with
    | reference r => simp only [ih, State.read, h.slot]
    | _ => simp only [htype]

theorem memberText_eq (dump : Bool) (visiting : List ObjectId) (members : ObjectId → String)
    (v : Value) : s.memberText dump visiting members v = t.memberText dump visiting members v := by
  have hobject (o : ObjectId) : (s.object o).classId = (t.object o).classId ∧
      s.typeName o = t.typeName o ∧ s.brief o = t.brief o :=
    ⟨(h.object o).classId, L.sighted.typeName (σ := ⟨s, t⟩) h trivial,
      L.sighted.brief (σ := ⟨s, t⟩) h trivial⟩
  have htext : s.text v = t.text v := L.sighted.storedText (σ := ⟨s, t⟩) h trivial
  unfold State.memberText
  rw [dumpWith_eq L h, h.slots]
  cases v with
  | object o => simp only [hobject]
  | _ => simp only [htext]

theorem membersUpTo_eq (dump : Bool) (n : Nat) (visiting : List ObjectId) (o : ObjectId) :
    s.membersUpTo dump n visiting o = t.membersUpTo dump n visiting o := by
  induction n generalizing visiting o with
  | zero => rfl
  | succ n ih =>
    have hmembers : s.membersUpTo dump n (o :: visiting) = t.membersUpTo dump n (o :: visiting) :=
      funext (ih (o :: visiting))
    have hnames : s.objectMethodNames o = t.objectMethodNames o := by
      simp only [State.objectMethodNames, (h.object o).classId, State.methodNames_congr h.classes]
    simp only [State.membersUpTo, (h.object o).members, hmembers, hnames, memberText_eq L h, h.slot]

end

theorem step {σ τ : Duo} (h : τ.left.Resembles K.code K.files τ.right) : K.lockstep.Step σ τ :=
  ⟨h, trivial⟩

/-- The same change of what is neither an object nor a file is a step. -/
theorem step_adjust {σ : Duo} {f : State → State} (h : σ.left.Resembles K.code K.files σ.right)
    (hf : State.Beside f) : K.lockstep.Step σ (σ.map f) :=
  step (h.adjust hf)

theorem pushes {σ τ : Duo} (h : τ.left.Resembles K.code K.files τ.right) :
    K.lockstep.Pushes σ τ where
  inv := h
  good _ _ hv := hv
  stored _ hv := hv
  back _ hτ _ := step (hτ.adjust (f := State.popFrame) fun _ => ⟨rfl, rfl, rfl⟩)

/-- A frame with a new scope in both states. -/
theorem pushes_scope {σ : Duo} {push : State → State} (parent : Option ObjectId) (frame : Frame)
    (h : σ.left.Resembles K.code K.files σ.right)
    (hleft : push σ.left = { (σ.left.addObject { payload := .scope parent }).2 with
      frames := frame :: σ.left.frames })
    (hright : push σ.right = { (σ.right.addObject { payload := .scope parent }).2 with
      frames := frame :: σ.right.frames }) : K.lockstep.Pushes σ (σ.map push) := by
  have hscope := h.addObject (x := { payload := .scope parent }) ⟨rfl, rfl, .other _ nofun⟩
  refine pushes ?_
  rw [Duo.map, hleft, hright]
  exact hscope.adjust (f := fun u => { u with frames := frame :: u.frames }) fun _ => ⟨rfl, rfl, rfl⟩

theorem Lawful.lockstep (L : K.Lawful) : K.lockstep.Lawful where
  toSighted := L.sighted
  refl _ := trivial
  trans _ _ := trivial
  good_mono _ hv := hv
  stored_mono _ hv := hv
  raised_mono _ he := he
  global h := h.eq State.global fun _ => rfl
  this h := h.eq State.thisObject fun _ => rfl
  scope h := h.eq State.currentScope fun _ => rfl
  backtrace h := h.eq State.backtrace fun _ => rfl
  files path h := L.read path h.files
  output h := h.eq State.output fun _ => rfl
  errorOutput h := h.eq State.errorOutput fun _ => rfl
  size h := h.size
  members h _ := by
    rw [State.membersText, State.membersText, h.size, membersUpTo_eq L h]
  dump h _ := by
    rw [State.dump, State.dump, h.size, h.slots, funext (membersUpTo_eq L h true _ []),
      dumpWith_eq L h]
  literal _ _ := trivial
  stored_this _ := trivial
  stored_global _ := trivial
  raise _ _ := trivial
  raised_value _ := trivial
  reference hv := .inl hv
  container _ _ := trivial
  read := by
    rintro σ r _ h ⟨⟩
    exact congrArg Slot.value (h.slot _)
  readOnly := by
    rintro σ r _ h ⟨⟩
    exact congrArg Slot.readOnly (h.slot _)
  write := by
    rintro σ r _ v h ⟨⟩ _ _
    exact step_adjust (f := (·.writeSlot r.slot v)) h fun _ => ⟨rfl, rfl, rfl⟩
  own := by
    intro σ o name h _
    rw [h.own?]
    exact Option.rel_self fun _ _ => rfl
  found := by
    intro σ name h
    rw [h.size, h.findScope, h.eq State.currentScope fun _ => rfl]
    exact Option.rel_self fun _ _ => ⟨rfl, rfl⟩
  make h hmade := by
    refine ⟨step (h.addObject ?_), trivial⟩
    cases hmade with
    | same => exact ⟨rfl, rfl, Payload.pairs_self fun f _ => L.code_refl f⟩
    | script _ hcode => exact ⟨rfl, rfl, .function (.script hcode)⟩
  allocate {σ o v} name readOnly h _ _ := by
    refine ⟨step (h.allocate o name v readOnly), fun _ => ?_⟩
    exact congrArg (fun slots => Value.reference ⟨⟨slots⟩, some o, some name⟩)
      (congrArg Array.size h.slots)
  method {σ o name f} h _ _ := by
    refine ⟨step_adjust h fun _ => ⟨rfl, rfl, rfl⟩, ?_⟩
    exact congrArg (fun slots => Value.reference ⟨⟨slots⟩, some o, some name⟩)
      (congrArg Array.size h.slots)
  append _ h := step_adjust h fun _ => ⟨rfl, rfl, rfl⟩
  appendError _ h := step_adjust h fun _ => ⟨rfl, rfl, rfl⟩
  mortal h := h.eq State.mortal fun _ => rfl
  hold := by
    intro σ nodes nodes' h hnodes
    obtain rfl := hnodes.eq fun _ _ hv => hv
    exact step_adjust (f := (·.hold nodes)) h fun _ => ⟨rfl, rfl, rfl⟩
  free := by
    intro σ τ hσ hτ _
    rw [← hσ.eq State.held fun _ => rfl]
    exact step_adjust (f := fun u => { u with held := σ.left.held }) hτ fun _ => ⟨rfl, rfl, rfl⟩
  settle classes h := step (h.settleAmong classes)
  pushCall {σ container} name h _ := by
    refine pushes_scope none ⟨name, container.getD σ.left.globalThis, ⟨σ.left.objects.size⟩⟩ h rfl ?_
    rw [h.eq State.globalThis fun _ => rfl, h.size]
    rfl
  pushGlobal name h := pushes (h.adjust (f := (·.pushGlobal name)) fun _ => ⟨rfl, rfl, rfl⟩)
  pushBlock {σ} h := by
    refine pushes_scope (some σ.left.currentScope) ⟨"", σ.left.thisObject, ⟨σ.left.objects.size⟩⟩ h
      rfl ?_
    rw [h.eq State.currentScope fun _ => rfl, h.eq State.thisObject fun _ => rfl, h.size]
    rfl
  good_pop hv := hv
  stored_pop hv := hv
  raised_pop he := he
  expr_pairs := L.expr_pairs
  stmt_pairs := L.stmt_pairs
  expr_code := L.expr_code
  stmt_code := L.stmt_code
  program _ _ _ _ _ := L.stmt_refl _
  hostOf _ _ _ _ := trivial

theorem Lawful.hosts (L : K.Lawful) : K.lockstep.Hosts :=
  L.lockstep.hosts
    (fun _ h _ _ => step (h.modify _ _ fun hx => ⟨hx.classId, hx.members, .other _ nofun⟩))
    (fun _ _ => rfl) fun _ _ => rfl

end Likeness

end Scripting
