import Scripting.Proofs.Lockstep.Run

/-!
Disciplines: what every computation of the interpreter keeps.

A `Discipline` says what holds of the state between two steps, how a later state is related to an
earlier one, and which values may be given by an expression, be stored, and be thrown. Whether the
primitive changes of the state respect it is collected in `Discipline.Lawful`. One run beside itself is
two runs in lockstep (`Discipline.twin`), so a lawful discipline is kept by every computation, however
it ends (`Lawful.interprets`); and what a computation does depends only on what the evaluation that it
refers to does within the discipline (`Lawful.evaluateStep_congr` and the others).
-/

namespace Scripting

/-- The state in which a computation ended. -/
def Outcome.EndsIn {α : Type} (outcome : Outcome α) (s : State) : Prop :=
  (∃ a, outcome = .ok a s) ∨ ∃ e, outcome = .thrown e s

/-- The state in which a computation ended, if it did. -/
def Outcome.state? {α : Type} : Outcome α → Option State
  | .ok _ s | .thrown _ s => some s
  | .outOfFuel | .needsFile _ => none

theorem Outcome.exists_endsIn {α : Type} {outcome : Outcome α} {p : State → Bool}
    (h : outcome.state?.any p = true) : ∃ s, outcome.EndsIn s ∧ p s = true := by
  cases outcome with
  | ok a s => exact ⟨s, .inl ⟨a, rfl⟩, h⟩
  | thrown e s => exact ⟨s, .inr ⟨e, rfl⟩, h⟩
  | outOfFuel => cases h
  | needsFile path => cases h

structure Discipline where
  /-- What holds of every state. -/
  inv : State → Prop
  /-- How a state is related to a later one. -/
  leads : State → State → Prop
  /-- The values that an expression may give. -/
  good : State → Value → Prop
  /-- The values that may be stored, passed and returned. -/
  stored : State → Value → Prop
  /-- The exceptions that may be thrown. -/
  raised : State → Exception → Prop
  /-- The expressions that may be evaluated. -/
  expr : Expr → Prop
  /-- The statements that may be executed. -/
  stmt : Stmt → Prop
  /-- The functions of the host that may be called. -/
  host : HostFunction → Prop
  /-- The functions that may be defined. -/
  code : FunctionDef → Prop := fun _ => True
  /-- The source texts that may be run. -/
  text : String → Prop := fun _ => True

namespace Discipline

variable (D : Discipline)

/-- The end of a computation that started in `s` and whose result satisfies `Q`. A computation that
has not ended says nothing. -/
def Ends {α : Type} (s : State) (Q : State → α → Prop) : Outcome α → Prop
  | .ok a s' => D.inv s' ∧ D.leads s s' ∧ Q s' a
  | .thrown e s' => D.inv s' ∧ D.leads s s' ∧ D.raised s' e
  | .outOfFuel | .needsFile _ => True

/-- A computation that starts in `s` keeps the discipline, and its result satisfies `Q`. -/
def Keeps {α : Type} (s : State) (Q : State → α → Prop) (m : Eval α) : Prop :=
  D.Ends s Q (m s)

/-- A change of the state that may happen. -/
def Step (s s' : State) : Prop :=
  D.inv s' ∧ D.leads s s'

/-- A change of the state that puts a frame on the stack. When the frame is taken off again, what
happened in between counts as a change that may happen. -/
structure Pushes (s s₁ : State) : Prop where
  inv : D.inv s₁
  good : ∀ v, D.good s v → D.good s₁ v
  stored : ∀ v, D.stored s v → D.stored s₁ v
  back : ∀ s', D.inv s' → D.leads s₁ s' → D.Step s s'.popFrame

/-- How a statement may end. -/
def ended (s : State) : Completion → Prop
  | .normal v => D.good s v
  | .returned v => D.stored s v
  | .broken | .continued => True

/-- What a source text may give. -/
def ran (s : State) : Except RunError Value → Prop
  | .ok v => D.stored s v
  | .error (.uncaught e) => D.raised s e
  | .error _ => True

/-- Things that may be held: each belongs to a value that an expression may give. -/
def Handed (s : State) (nodes : List Node) : Prop :=
  ∀ node ∈ nodes, ∃ v, D.good s v ∧ node ∈ v.nodes

/-- What the evaluation that a rule refers to has to keep. -/
structure Interprets (i : Interp) : Prop where
  evaluate : ∀ {e s}, D.expr e → D.inv s → D.Keeps s D.good (i.evaluate e)
  execute : ∀ {statement s}, D.stmt statement → D.inv s → D.Keeps s D.ended (i.execute statement)
  call : ∀ {v args s}, D.inv s → D.good s v → (∀ a ∈ args, D.stored s a) →
    D.Keeps s D.good (i.call v args)

/-- The primitive changes of the state respect a discipline, as long as nothing is bound in the current
scope and no call and no included text is entered. -/
structure Core : Prop where
  refl : ∀ s, D.leads s s
  trans : ∀ {s s' s''}, D.leads s s' → D.leads s' s'' → D.leads s s''
  good_mono : ∀ {s s' v}, D.leads s s' → D.good s v → D.good s' v
  stored_mono : ∀ {s s' v}, D.leads s s' → D.stored s v → D.stored s' v
  raised_mono : ∀ {s s' e}, D.leads s s' → D.raised s e → D.raised s' e
  good_of_stored : ∀ {s v}, D.stored s v → D.good s v
  -- values
  literal : ∀ {v} (s), v.IsLiteral → D.stored s v
  deref : ∀ {s v}, D.inv s → D.good s v → D.stored s (s.deref v)
  this : ∀ {s}, D.inv s → D.stored s (.object s.thisObject)
  global : ∀ {s}, D.inv s → D.stored s (.object s.global)
  container : ∀ {s r o}, D.good s (.reference r) → r.container = some o → D.stored s (.object o)
  read : ∀ {s r}, D.inv s → D.good s (.reference r) → D.good s (s.read r)
  raise : ∀ {s v}, D.inv s → D.stored s v → D.raised s ⟨v, s.backtrace⟩
  raised_value : ∀ {s e}, D.raised s e → D.stored s e.value
  -- objects and slots
  make : ∀ {s object}, D.inv s → s.Makes D.stmt object → object.Scripts D.code →
    D.Step s (s.addObject object).2 ∧
      D.stored (s.addObject object).2 (.object (s.addObject object).1)
  extend : ∀ {s o v} (name readOnly), D.inv s → D.stored s (.object o) → D.stored s v →
    D.Step s (s.allocate o name v readOnly).2 ∧
      D.good (s.allocate o name v readOnly).2
        (.reference ⟨(s.allocate o name v readOnly).1, some o, some name⟩)
  method : ∀ {s o name f}, D.inv s → D.stored s (.object o) → s.objectMethod? o name = some f →
    D.Step s (s.addSlot ⟨.object f, true, some name⟩).2 ∧
      D.good (s.addSlot ⟨.object f, true, some name⟩).2
        (.reference ⟨(s.addSlot ⟨.object f, true, some name⟩).1, some o, some name⟩)
  own : ∀ {s o name i}, D.inv s → D.stored s (.object o) → s.own? o name = some i →
    D.good s (.reference ⟨i, some o, some name⟩)
  found : ∀ {s name scope i}, D.inv s →
    s.findScope name (s.objects.size + 1) s.currentScope = some (scope, i) →
      D.good s (.reference ⟨i, if scope = s.global then some s.global else none, some name⟩)
  write : ∀ {s r v}, D.inv s → D.good s (.reference r) → (s.slot r.slot).readOnly = false →
    D.stored s v → D.Step s (s.writeSlot r.slot v)
  -- streams and lives
  output : ∀ {s} (text), D.inv s → D.Step s { s with output := s.output.append text }
  errorOutput : ∀ {s} (text), D.inv s →
    D.Step s { s with errorOutput := s.errorOutput.append text }
  hold : ∀ {s nodes}, D.inv s → D.Handed s nodes → D.Step s (s.hold nodes)
  free : ∀ {s s'}, D.inv s → D.inv s' → D.leads s s' → D.Step s' { s' with held := s.held }
  settle : ∀ {s} (classes), D.inv s → D.Step s (s.settleAmong classes)
  -- frames
  pushBlock : ∀ {s}, D.inv s → D.Pushes s s.pushBlock
  good_pop : ∀ {s v}, D.good s v → D.good s.popFrame v
  stored_pop : ∀ {s v}, D.stored s v → D.stored s.popFrame v
  raised_pop : ∀ {s e}, D.raised s e → D.raised s.popFrame e
  -- code
  expr_parts : ∀ {e}, D.expr e → e.Parts D.expr D.stmt
  stmt_parts : ∀ {statement}, D.stmt statement → statement.Parts D.expr D.stmt
  expr_code : ∀ {span definition}, D.expr (.function span definition) → D.code definition := by
    exact fun _ => trivial
  stmt_code : ∀ {span definition}, D.stmt (.function span definition) → D.code definition := by
    exact fun _ => trivial
  script : ∀ {s o definition}, D.inv s → (s.object o).callable? = some (.script definition) →
    ∀ item ∈ definition.body, D.stmt item.statement
  text_of_file : ∀ {s path source}, D.inv s → s.files.read path = some (.ok source) →
    D.text source := by
    exact fun _ _ => trivial
  program : ∀ {source program}, D.text source → parseProgram source = .ok program →
    program.isError = false → ∀ statement ∈ program.statements, D.stmt statement
  hostOf : ∀ {s o f h}, D.inv s → (s.object o).callable? = some (.native f) →
    f.callback = .host h → D.host h

/-- Binding names in the current scope respects the discipline as well. -/
structure Inner : Prop extends D.Core where
  allocate : ∀ {s o v} (name readOnly), D.inv s → o = s.currentScope ∨ D.stored s (.object o) →
    D.stored s v → D.Step s (s.allocate o name v readOnly).2 ∧
      (D.stored s (.object o) → D.good (s.allocate o name v readOnly).2
        (.reference ⟨(s.allocate o name v readOnly).1, some o, some name⟩))
  extend name readOnly hs ho hv :=
    have h := allocate name readOnly hs (.inr ho) hv
    ⟨h.1, h.2 ho⟩

/-- Entering a call or an included text respects the discipline as well. -/
structure Lawful : Prop extends D.Inner where
  pushCall : ∀ {s container} (name), D.inv s →
    (∀ o, container = some o → D.stored s (.object o)) → D.Pushes s (s.pushCall name container)
  pushGlobal : ∀ {s} (name), D.inv s → D.Pushes s (s.pushGlobal name)

/-- The evaluations that two computations refer to do the same within a discipline. -/
structure Agree (i i' : Interp) : Prop where
  fuel : i.fuel = i'.fuel
  evaluate : ∀ {e s}, D.expr e → D.inv s → i.evaluate e s = i'.evaluate e s
  execute : ∀ {statement s}, D.stmt statement → D.inv s →
    i.execute statement s = i'.execute statement s
  call : ∀ {v args s}, D.inv s → D.good s v → (∀ a ∈ args, D.stored s a) →
    i.call v args s = i'.call v args s

theorem Agree.refl (i : Interp) : D.Agree i i :=
  ⟨rfl, fun _ _ => rfl, fun _ _ => rfl, fun _ _ _ => rfl⟩

/-- One run beside itself. -/
def twin : Lockstep where
  inv σ := ∃ s, σ = ⟨s, s⟩ ∧ D.inv s
  leads σ τ := D.leads σ.left τ.left
  good σ v v' := v = v' ∧ D.good σ.left v
  stored σ v := D.stored σ.left v
  raised σ e := D.raised σ.left e
  expr e e' := e = e' ∧ D.expr e
  stmt statement statement' := statement = statement' ∧ D.stmt statement
  code f f' := f = f' ∧ D.code f
  host := D.host
  text := D.text

variable {D} {α : Type} {s : State}

section
variable {m : Eval α} {Q : State → α → Prop} {s' : State} (h : D.Keeps s Q m)
include h

theorem Keeps.of_ok {a : α} (hrun : m s = .ok a s') : D.inv s' ∧ D.leads s s' ∧ Q s' a := by
  unfold Keeps at h
  rwa [hrun] at h

theorem Keeps.of_thrown {e : Exception} (hrun : m s = .thrown e s') :
    D.inv s' ∧ D.leads s s' ∧ D.raised s' e := by
  unfold Keeps at h
  rwa [hrun] at h

/-- However a computation ends, what holds of every state holds at its end. -/
theorem Keeps.inv (hs' : (m s).EndsIn s') : D.inv s' := by
  rcases hs' with ⟨a, hend⟩ | ⟨e, hend⟩
  · exact (h.of_ok hend).1
  · exact (h.of_thrown hend).1

theorem Keeps.leads (hs' : (m s).EndsIn s') : D.leads s s' := by
  rcases hs' with ⟨a, hend⟩ | ⟨e, hend⟩
  · exact (h.of_ok hend).2.1
  · exact (h.of_thrown hend).2.1

end

theorem Step.twin {s' : State} (h : D.Step s s') : D.twin.Step ⟨s, s⟩ ⟨s', s'⟩ :=
  ⟨⟨_, rfl, h.1⟩, h.2⟩

theorem Pushes.twin {s₁ : State} (h : D.Pushes s s₁) : D.twin.Pushes ⟨s, s⟩ ⟨s₁, s₁⟩ where
  inv := ⟨_, rfl, h.inv⟩
  good := by
    rintro v _ ⟨rfl, hv⟩
    exact ⟨rfl, h.good v hv⟩
  stored v hv := h.stored v hv
  back := by
    rintro _ ⟨s', rfl, hs'⟩ hl
    exact (h.back s' hs' hl).twin

theorem Keeps.twin {m m' : Eval α} {Q : State → α → Prop} {P : Duo → α → α → Prop}
    (h : D.Keeps s Q m) (hm : m s = m' s) (hP : ∀ s' a, Q s' a → P ⟨s', s'⟩ a a) :
    D.twin.Keeps ⟨s, s⟩ P m m' := by
  change D.twin.Ends ⟨s, s⟩ P (m s) (m' s)
  unfold Keeps at h
  rw [← hm]
  generalize m s = outcome at h
  cases outcome with
  | ok a s' => exact .ok ⟨s', rfl, h.1⟩ h.2.1 (hP s' a h.2.2)
  | thrown e s' => exact .thrown ⟨s', rfl, h.1⟩ h.2.1 h.2.2
  | outOfFuel => exact .outOfFuel
  | needsFile path => exact .needsFile path

theorem Keeps.of_twin {m : Eval α} {Q : State → α → Prop} {P : Duo → α → α → Prop}
    (h : D.twin.Keeps ⟨s, s⟩ P m m) (hP : ∀ s' a, P ⟨s', s'⟩ a a → Q s' a) : D.Keeps s Q m := by
  unfold Keeps
  change D.twin.Ends ⟨s, s⟩ P (m s) (m s) at h
  generalize m s = outcome at h
  cases outcome with
  | ok a s' =>
    cases h with
    | ok hinv hleads hresult =>
      obtain ⟨_, ⟨⟩, hs'⟩ := hinv
      exact ⟨hs', hleads, hP s' a hresult⟩
  | thrown e s' =>
    cases h with
    | thrown hinv hleads hraised =>
      obtain ⟨_, ⟨⟩, hs'⟩ := hinv
      exact ⟨hs', hleads, hraised⟩
  | outOfFuel => trivial
  | needsFile path => trivial

/-- Two runs that give the same do the same. -/
theorem eq_of_twin {m m' : Eval α} {P : Duo → α → α → Prop} (h : D.twin.Keeps ⟨s, s⟩ P m m')
    (hP : ∀ τ a b, P τ a b → a = b) : m s = m' s := by
  change D.twin.Ends ⟨s, s⟩ P (m s) (m' s) at h
  generalize m s = x at h ⊢
  generalize m' s = y at h ⊢
  cases h with
  | ok hinv hleads hresult =>
    obtain ⟨_, ⟨⟩, -⟩ := hinv
    obtain rfl := hP _ _ _ hresult
    rfl
  | thrown hinv hleads hraised =>
    obtain ⟨_, ⟨⟩, -⟩ := hinv
    rfl
  | outOfFuel => rfl
  | needsFile path => rfl
  | lacking h => exact False.elim h

theorem ended_twin {c : Completion} (h : D.ended s c) : D.twin.Ended ⟨s, s⟩ c c := by
  cases c with
  | normal v => exact .normal ⟨rfl, h⟩
  | returned v => exact .returned h
  | broken => exact .broken
  | continued => exact .continued

theorem ended_of_twin {c : Completion} (h : D.twin.Ended ⟨s, s⟩ c c) : D.ended s c := by
  cases h with
  | normal h => exact h.2
  | returned h => exact h
  | broken => trivial
  | continued => trivial

theorem eq_of_ended {τ : Duo} {c c' : Completion} (h : D.twin.Ended τ c c') : c = c' := by
  cases h with
  | normal h => rw [h.1]
  | returned _ => rfl
  | broken => rfl
  | continued => rfl

theorem Interprets.twin {i i' : Interp} (I : D.Interprets i) (A : D.Agree i i') :
    D.twin.Interprets i i' where
  fuel := A.fuel
  evaluate := by
    rintro e _ _ ⟨rfl, he⟩ ⟨s, rfl, hs⟩
    exact (I.evaluate he hs).twin (A.evaluate he hs) fun _ _ h => ⟨rfl, h⟩
  execute := by
    rintro statement _ ⟨rfl, hstatement⟩ _ ⟨s, rfl, hs⟩
    exact (I.execute hstatement hs).twin (A.execute hstatement hs) fun _ _ => ended_twin
  call := by
    rintro v _ args _ ⟨s, rfl, hs⟩ ⟨rfl, hv⟩ hargs
    exact (I.call hs hv hargs).twin (A.call hs hv hargs) fun _ _ h => ⟨rfl, h⟩

/-- One run beside itself holds the same. -/
theorem handed_of_twin {nodes nodes' : List Node} (h : D.twin.Handed ⟨s, s⟩ nodes nodes') :
    nodes = nodes' ∧ D.Handed s nodes := by
  refine ⟨h.eq fun _ _ hv => hv.1, ?_⟩
  induction h with
  | nil => exact nofun
  | @value v _ h => exact fun node hnode => ⟨v, h.2, hnode⟩
  | append _ _ ih ihmore =>
    intro node hnode
    rcases List.mem_append.1 hnode with hnode | hnode
    · exact ih node hnode
    · exact ihmore node hnode

theorem Core.twin (L : D.Core) : D.twin.Core where
  refl σ := L.refl σ.left
  trans h h' := L.trans h h'
  good_mono hl h := ⟨h.1, L.good_mono hl h.2⟩
  stored_mono hl h := L.stored_mono hl h
  raised_mono hl h := L.raised_mono hl h
  good_of_stored h := ⟨rfl, L.good_of_stored h⟩
  classes h := by obtain ⟨s, rfl, -⟩ := h; rfl
  global h := by obtain ⟨s, rfl, -⟩ := h; rfl
  this h := by obtain ⟨s, rfl, -⟩ := h; rfl
  scope h := by obtain ⟨s, rfl, -⟩ := h; rfl
  backtrace h := by obtain ⟨s, rfl, -⟩ := h; rfl
  files _ h := by obtain ⟨s, rfl, -⟩ := h; exact .inl rfl
  output h := by obtain ⟨s, rfl, -⟩ := h; rfl
  errorOutput h := by obtain ⟨s, rfl, -⟩ := h; rfl
  size h := by obtain ⟨s, rfl, -⟩ := h; rfl
  classId h _ := by obtain ⟨s, rfl, -⟩ := h; rfl
  payload {_ o} h _ := by
    obtain ⟨s, rfl, hs⟩ := h
    refine Payload.pairs_self fun f hf => FunctionDef.pairs_self fun item hitem => ⟨rfl, ?_⟩
    exact L.script (o := o) hs (by rw [Object.callable?, hf]) item hitem
  members h _ := by obtain ⟨s, rfl, -⟩ := h; rfl
  dump h _ := by obtain ⟨s, rfl, -⟩ := h; rfl
  literal σ h := L.literal σ.left h
  stored_this h := by obtain ⟨s, rfl, hs⟩ := h; exact L.this hs
  stored_global h := by obtain ⟨s, rfl, hs⟩ := h; exact L.global hs
  deref h hv := by obtain ⟨s, rfl, -⟩ := h; rw [hv.1]
  stored_deref h hv := by obtain ⟨s, rfl, hs⟩ := h; exact L.deref hs hv.2
  raise h hv := by obtain ⟨s, rfl, hs⟩ := h; exact L.raise hs hv
  raised_value h := L.raised_value h
  reference hv := .inl hv.1
  container hv ho := L.container hv.2 ho
  read := by
    rintro _ r _ ⟨s, rfl, hs⟩ ⟨⟨⟩, hr⟩
    exact ⟨rfl, L.read hs hr⟩
  readOnly := by
    rintro _ r _ ⟨s, rfl, hs⟩ ⟨⟨⟩, hr⟩
    rfl
  write := by
    rintro _ r _ v ⟨s, rfl, hs⟩ ⟨⟨⟩, hr⟩ hro hv
    exact (L.write hs hr hro hv).twin
  own := by
    rintro _ o name ⟨s, rfl, hs⟩ ho
    cases hi : s.own? o name with
    | none => exact .none
    | some i => exact .some ⟨rfl, L.own hs ho hi⟩
  found := by
    rintro _ name ⟨s, rfl, hs⟩
    dsimp only
    cases hfound : s.findScope name (s.objects.size + 1) s.currentScope with
    | none => exact .none
    | some p => exact .some ⟨rfl, rfl, L.found hs hfound⟩
  make := by
    rintro _ object _ ⟨s, rfl, hs⟩ hmade
    have hmake : ∀ {object}, s.Makes D.stmt object → object.Scripts D.code →
        D.twin.Step ⟨s, s⟩ ⟨(s.addObject object).2, (s.addObject object).2⟩ ∧
          D.stored (s.addObject object).2 (.object (s.addObject object).1) := by
      intro object hobject hscripts
      obtain ⟨hstep, ho⟩ := L.make hs hobject hscripts
      exact ⟨hstep.twin, ho⟩
    cases hmade with
    | same h hscripts => exact hmake (h.recode hscripts) fun f hf => (hscripts f hf).elim
    | script h hcode =>
      obtain ⟨rfl, hcode⟩ := hcode
      refine hmake (.script _ fun item hitem => ?_) ?_
      · exact (List.forall₂_same.1 h.body item hitem).statement.2
      · rintro _ ⟨⟩
        exact hcode
  extend := by
    rintro _ o v name readOnly ⟨s, rfl, hs⟩ ho hv
    obtain ⟨hstep, hgood⟩ := L.extend name readOnly hs ho hv
    exact ⟨hstep.twin, rfl, hgood⟩
  method := by
    rintro _ o name f ⟨s, rfl, hs⟩ ho hf
    obtain ⟨hstep, hgood⟩ := L.method hs ho hf
    exact ⟨hstep.twin, rfl, hgood⟩
  append := by
    rintro _ text ⟨s, rfl, hs⟩
    exact (L.output text hs).twin
  appendError := by
    rintro _ text ⟨s, rfl, hs⟩
    exact (L.errorOutput text hs).twin
  mortal h := by obtain ⟨s, rfl, -⟩ := h; rfl
  hold := by
    rintro _ nodes nodes' ⟨s, rfl, hs⟩ hnodes
    obtain ⟨rfl, hhanded⟩ := handed_of_twin hnodes
    exact (L.hold hs hhanded).twin
  free := by
    rintro _ _ ⟨s, rfl, hs⟩ ⟨s', rfl, hs'⟩ hl
    exact (L.free hs hs' hl).twin
  settle := by
    rintro _ classes ⟨s, rfl, hs⟩
    exact (L.settle classes hs).twin
  pushBlock := by
    rintro _ ⟨s, rfl, hs⟩
    exact (L.pushBlock hs).twin
  good_pop h := ⟨h.1, L.good_pop h.2⟩
  stored_pop h := L.stored_pop h
  raised_pop h := L.raised_pop h
  expr_pairs := by
    rintro e _ ⟨rfl, he⟩
    exact Expr.Parts.pairs (by simpa [Discipline.twin] using L.expr_parts he)
  stmt_pairs := by
    rintro statement _ ⟨rfl, h⟩
    exact Stmt.Parts.pairs (by simpa [Discipline.twin] using L.stmt_parts h)
  expr_code := by
    rintro _ _ f _ ⟨⟨⟩, h⟩
    exact ⟨rfl, L.expr_code h⟩
  stmt_code := by
    rintro _ _ f _ ⟨⟨⟩, h⟩
    exact ⟨rfl, L.stmt_code h⟩
  text_of_file h hfile := by obtain ⟨s, rfl, hs⟩ := h; exact L.text_of_file hs hfile
  program h h' h'' statement hmem := ⟨rfl, L.program h h' h'' statement hmem⟩
  hostOf h _ hf hcallback := by obtain ⟨s, rfl, hs⟩ := h; exact L.hostOf hs hf hcallback

theorem Inner.twin (L : D.Inner) : D.twin.Inner where
  toCore := L.toCore.twin
  allocate := by
    rintro _ o v name readOnly ⟨s, rfl, hs⟩ ho hv
    obtain ⟨hstep, hgood⟩ := L.allocate name readOnly hs ho hv
    exact ⟨hstep.twin, fun h => ⟨rfl, hgood h⟩⟩

theorem Lawful.twin (L : D.Lawful) : D.twin.Lawful where
  toInner := L.toInner.twin
  pushCall := by
    rintro _ container name ⟨s, rfl, hs⟩ hcontainer
    exact (L.pushCall name hs hcontainer).twin
  pushGlobal := by
    rintro _ name ⟨s, rfl, hs⟩
    exact (L.pushGlobal name hs).twin

end Discipline

end Scripting
