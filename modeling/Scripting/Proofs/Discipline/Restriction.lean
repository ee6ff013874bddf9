import Scripting.Proofs.Discipline.Reach
import Scripting.Proofs.Discipline.States

/-!
Disciplines with one more property of the heap.

If all that happens within a discipline keeps a property of classes, objects and slots, the property can
be asked of every state. The property may speak of a fixed earlier state too: then it says what has
changed since, at the end of a run as well as in its middle.
-/

namespace Scripting.Discipline

/-- A discipline in which every state has one more property, and other functions of the host may be
called. -/
def restrict (D : Discipline) (P : State → Prop) (host : HostFunction → Prop) : Discipline :=
  { D with
    inv := fun s => D.inv s ∧ P s
    host := host }

/-- All that happens within a discipline keeps a property of the heap. -/
structure HeapLaws (D : Discipline) (P : State → Prop) (host : HostFunction → Prop) : Prop where
  of_heap : ∀ {s s'}, P s → s'.classes = s.classes → s'.objects = s.objects → s'.slots = s.slots →
    P s'
  settle : ∀ {s} (classes), D.inv s → P s → P (s.settleAmong classes)
  make : ∀ {s object}, D.inv s → P s → s.Makes D.stmt object → P (s.addObject object).2
  scope : ∀ {s} (parent), P s → P (s.addObject { payload := .scope parent }).2
  addSlot : ∀ {s} (slot), P s → P (s.addSlot slot).2
  allocate : ∀ {s} (o name v readOnly), P s → P (s.allocate o name v readOnly).2
  write : ∀ {s i} (v), P s → (s.slot i).readOnly = false → P (s.writeSlot i v)
  hostOf : ∀ {s o f h}, D.inv s → P s → (s.object o).callable? = some (.native f) →
    f.callback = .host h → host h

variable {D : Discipline} {P : State → Prop} {host : HostFunction → Prop}

theorem HeapLaws.pushes (H : D.HeapLaws P host) {s s₁ : State} (hp : D.Pushes s s₁) (h : P s₁) :
    (D.restrict P host).Pushes s s₁ where
  inv := ⟨hp.inv, h⟩
  good := hp.good
  stored := hp.stored
  back s' hs' hl := by
    obtain ⟨hinv, hleads⟩ := hp.back s' hs'.1 hl
    exact ⟨⟨hinv, H.of_heap hs'.2 rfl rfl rfl⟩, hleads⟩

/-- A step within the discipline that keeps the property. -/
theorem Step.restrict {s s' : State} (h : D.Step s s') (hP : P s') :
    (D.restrict P host).Step s s' :=
  ⟨⟨h.1, hP⟩, h.2⟩

theorem lawful_restrict (L : D.Lawful) (H : D.HeapLaws P host) : (D.restrict P host).Lawful where
  refl := L.refl
  trans := L.trans
  good_mono := L.good_mono
  stored_mono := L.stored_mono
  raised_mono := L.raised_mono
  good_of_stored := L.good_of_stored
  literal := L.literal
  deref hs := L.deref hs.1
  this hs := L.this hs.1
  global hs := L.global hs.1
  container := L.container
  read hs := L.read hs.1
  raise hs := L.raise hs.1
  raised_value := L.raised_value
  make := by
    intro s object hs hmakes hscripts
    obtain ⟨hstep, ho⟩ := L.make hs.1 hmakes hscripts
    exact ⟨hstep.restrict (H.make hs.1 hs.2 hmakes), ho⟩
  allocate := by
    intro s o v name readOnly hs ho hv
    obtain ⟨hstep, hgood⟩ := L.allocate name readOnly hs.1 ho hv
    exact ⟨hstep.restrict (H.allocate o name v readOnly hs.2), hgood⟩
  method := by
    intro s o name f hs ho hf
    obtain ⟨hstep, hgood⟩ := L.method hs.1 ho hf
    exact ⟨hstep.restrict (H.addSlot _ hs.2), hgood⟩
  own hs := L.own hs.1
  found hs := L.found hs.1
  write hs hr hwritable hv := (L.write hs.1 hr hwritable hv).restrict (H.write _ hs.2 hwritable)
  output text hs := (L.output text hs.1).restrict (H.of_heap hs.2 rfl rfl rfl)
  errorOutput text hs := (L.errorOutput text hs.1).restrict (H.of_heap hs.2 rfl rfl rfl)
  hold hs hnodes := (L.hold hs.1 hnodes).restrict (H.of_heap hs.2 rfl rfl rfl)
  free hs hs' hl := (L.free hs.1 hs'.1 hl).restrict (H.of_heap hs'.2 rfl rfl rfl)
  settle classes hs := (L.settle classes hs.1).restrict (H.settle classes hs.1 hs.2)
  pushCall name hs hcontainer :=
    H.pushes (L.pushCall name hs.1 hcontainer) (H.of_heap (H.scope none hs.2) rfl rfl rfl)
  pushGlobal name hs := H.pushes (L.pushGlobal name hs.1) (H.of_heap hs.2 rfl rfl rfl)
  pushBlock {s} hs :=
    H.pushes (L.pushBlock hs.1) (H.of_heap (H.scope (some s.currentScope) hs.2) rfl rfl rfl)
  good_pop := L.good_pop
  stored_pop := L.stored_pop
  raised_pop := L.raised_pop
  expr_parts := L.expr_parts
  stmt_parts := L.stmt_parts
  expr_code := L.expr_code
  stmt_code := L.stmt_code
  script hs := L.script hs.1
  text_of_file hs := L.text_of_file hs.1
  program := L.program
  hostOf hs := H.hostOf hs.1 hs.2

/-- Where no function of the host may be called, none can go wrong. -/
theorem hosts_of_none {D : Discipline} (h : ∀ f, ¬D.host f) : D.twin.Hosts := by
  intro i i' f this args σ _ hf
  exact absurd hf (h f)

/-- The discipline that asks nothing at all. -/
def anything : Discipline :=
  ofStates (fun _ => True) fun _ _ => True

theorem anything_pushes (s s₁ : State) : anything.Pushes s s₁ :=
  pushes_ofStates trivial fun _ _ _ => ⟨trivial, trivial⟩

theorem anything_lawful : anything.Lawful :=
  lawful_ofStates {
    refl := fun _ => trivial
    trans := fun _ _ => trivial
    addObject := fun _ _ => ⟨trivial, trivial⟩
    addSlot := fun _ _ => ⟨trivial, trivial⟩
    allocate := fun _ _ _ _ _ => ⟨trivial, trivial⟩
    writeSlot := fun _ _ _ => ⟨trivial, trivial⟩
    setHostData := fun _ _ _ => ⟨trivial, trivial⟩
    output := fun _ _ => ⟨trivial, trivial⟩
    errorOutput := fun _ _ => ⟨trivial, trivial⟩
    hold := fun _ _ => ⟨trivial, trivial⟩
    settle := fun _ _ => ⟨trivial, trivial⟩
    pushCall := fun _ _ _ => anything_pushes _ _
    pushGlobal := fun _ _ => anything_pushes _ _
    pushBlock := fun _ => anything_pushes _ _ }

end Scripting.Discipline
