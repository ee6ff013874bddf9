import Scripting.Proofs.Liveness.Search
import Scripting.Proofs.Session.Act
import Scripting.Proofs.Session.Registers

/-!
What holds in all sessions of a host.

Main statements: a session that commands lead to is sound, so whatever its registers name exists and the
classes that are kept are alive (`Session.Reached.sound`); all states that an interpreter goes through
while it carries out a command are sound and retain classes and functions (`Session.Sound.visits`); a
function that was made is the same in every later session (`Session.Sound.callable_later`); and scripts
reach sound states only (`State.Reached.sound`).
-/

namespace Scripting

namespace State

/-- A later state in which nothing that was there is gone, and functions and the lives of classes that
are not mortal are what they were. -/
structure Enlarges (s s' : State) : Prop where
  objects : s.objects.size ≤ s'.objects.size
  slots : s.slots.size ≤ s'.slots.size
  classes : s.classes.size ≤ s'.classes.size
  mortal : ∀ c ∈ s'.mortal, c ∈ s.mortal
  kept : ∀ c, c.index < s.classes.size → c ∉ s.mortal →
    (s'.classInfo c).alive = (s.classInfo c).alive
  callable : ∀ o f, (s.object o).callable? = some f → (s'.object o).callable? = some f

variable {s s' s'' : State}

theorem Enlarges.has (h : s.Enlarges s') (node : Node) (hnode : s.Has node) : s'.Has node :=
  has_of_sizes hnode h.objects h.slots h.classes

theorem Retains.enlarges (h : s.Retains s') : s.Enlarges s' :=
  ⟨h.objects, h.slots, Nat.le_of_eq h.classes.symm, h.mortal, fun c _ hc => h.kept c hc, h.callable⟩

theorem enlarges_addClass (s : State) (c : Class) : s.Enlarges (s.addClass c).2 := by
  refine ⟨Nat.le_refl _, Nat.le_refl _, by simp [addClass], fun _ h => h, ?_, fun _ _ h => h⟩
  intro c' hc' _
  rw [classInfo_addClass, if_neg (Nat.ne_of_lt hc')]

theorem Enlarges.bindMethod (h : s.Enlarges s') (c : ClassId) (name : String) (f : ObjectId) :
    s.Enlarges (s'.bindMethod c name f) := by
  refine ⟨h.objects, h.slots, by simpa [State.bindMethod] using h.classes, h.mortal, ?_, h.callable⟩
  intro c' hc' hmortal
  rw [classInfo_bindMethod]
  split <;> exact h.kept c' hc' hmortal

/-- A class that is alive and stays so. -/
structure Immortal (s : State) (c : ClassId) : Prop where
  has : s.Has (.class c)
  alive : (s.classInfo c).alive = true
  mortal : c ∉ s.mortal

theorem Immortal.enlarge {c : ClassId} (hc : s.Immortal c) (h : s.Enlarges s') : s'.Immortal c where
  has := h.has _ hc.has
  alive := (h.kept c hc.has hc.mortal).trans hc.alive
  mortal hmortal := hc.mortal (h.mortal c hmortal)

/-! The state of a new interpreter. -/

theorem installs_sound : Installs Sound where
  object := by
    intro s object hs h
    cases h with
    | native name builtin =>
      apply hs.newFunction
      intro node hnode
      cases hnode
    | @wrapper c hc =>
      have hnamed : ∀ c ∈ namedClasses, c.index < builtinClassCount := by decide
      exact hs.newWrapper (hs.has_builtin (hnamed c hc))
    | system =>
      refine hs.addPlain rfl ?_ rfl rfl
      rintro _ ⟨⟩
      exact hs.has_builtin (by decide)
  allocate name readOnly hs _ ho' := hs.allocate (hasValue_object.2 ho') _ name readOnly
  method c name hs hf := hs.bindMethod hf c name

theorem classes_bare (globalMarker thisMarker : Option String) (files : Files) :
    (bare globalMarker thisMarker files).classes = initialClasses := by
  cases globalMarker <;> cases thisMarker <;> rfl

/-- Without anything installed, no class has a virtual member. -/
theorem methods_of_initialClasses (h : s.classes = initialClasses) (c : ClassId) :
    (s.classInfo c).methods = {} := by
  obtain ⟨i⟩ := c
  rw [classInfo, h]
  rcases i with _ | _ | _ | _ | _ | _ | _ | _ | i <;> rfl

theorem methods_bare (globalMarker thisMarker : Option String) (files : Files) (c : ClassId) :
    ((bare globalMarker thisMarker files).classInfo c).methods = {} :=
  methods_of_initialClasses (classes_bare globalMarker thisMarker files) c

/-- An interpreter with two plain objects and nothing else. -/
theorem sound_of_plain {classId : Option ClassId} (hclass : classId = none ∨ classId = some .global)
    (hclasses : s.classes = initialClasses) (hslots : s.slots = #[])
    (hobjects : s.objects = #[⟨classId, ∅, .none⟩, ⟨none, ∅, .none⟩]) (hglobal : s.global = ⟨0⟩)
    (hglobalThis : s.globalThis = ⟨1⟩) (hframes : s.frames = [⟨globalFrameName, ⟨1⟩, ⟨0⟩⟩])
    (hheld : s.held = []) : s.Sound := by
  have hobject : ∀ o, (s.object o = ⟨classId, ∅, .none⟩) ∨ s.object o = ⟨none, ∅, .none⟩ := by
    rintro ⟨i⟩
    rw [object, hobjects]
    rcases i with _ | _ | i
    · exact .inl rfl
    · exact .inr rfl
    · exact .inr rfl
  have hpayload (o : ObjectId) : (s.object o).payload = .none := by
    rcases hobject o with ho | ho <;> rw [ho]
  have hsize : s.classes.size = builtinClassCount := by
    rw [hclasses]
    rfl
  refine ⟨⟨?_, ?_, ?_, ?_, ?_⟩, ⟨?_, ?_⟩, ?_, Nat.le_of_eq hsize.symm, ?_, ?_, ?_⟩
  · intro node hnode
    rw [hheld] at hnode
    cases hnode
  · intro frame hframe
    rw [hframes, List.mem_singleton] at hframe
    simp [hframe, Has, hobjects]
  · simp [Has, hglobal, hobjects]
  · simp [Has, hglobalThis, hobjects]
  · intro node child hchild
    cases node with
    | object o =>
      -- Only the class of the global object is held.
      rcases hobject o with ho | ho
      · rw [heldBy, ho] at hchild
        rcases hclass with rfl | rfl
        · cases hchild
        · obtain rfl := List.mem_singleton.1 hchild
          rw [Has, hsize]
          decide
      · rw [heldBy, ho] at hchild
        cases hchild
    | slot i =>
      rw [heldBy, slot_of_size_le s (by simp [hslots])] at hchild
      cases hchild
    | «class» c =>
      rw [heldBy, methods_of_initialClasses hclasses] at hchild
      cases hchild
  · rw [IsScope, hpayload]
    exact Bool.false_ne_true
  · intro frame hframe
    rw [hframes, List.mem_singleton] at hframe
    rw [hframe, ← hglobal]
    exact .global
  · intro c b hb
    rw [classInfo, hclasses] at hb
    have hbases : ∀ i < 8, ∀ b, (initialClasses.getD i default).base = some b → b.index < i := by
      decide
    by_cases hc : c.index < 8
    · exact hbases c.index hc b hb
    · rw [Array.getD_eq_getD_getElem?, Array.getElem?_eq_none (Nat.not_lt.1 hc)] at hb
      cases hb
  · intro o parent hparent
    rw [Object.parentScope?, hpayload] at hparent
    cases hparent
  · intro o f hf
    rw [Object.callable?, hpayload] at hf
    cases hf
  · rw [classInfo, hclasses]
    rfl

theorem sound_bare (globalMarker thisMarker : Option String) (files : Files) :
    (bare globalMarker thisMarker files).Sound := by
  have hint {s : State} (o : ObjectId) (name : String) (hs : s.Sound) :
      (s.allocate o name (.int 1) false).2.Sound :=
    hs.allocate (hasValue_of_nodes rfl) o name false
  cases globalMarker <;> cases thisMarker
  · exact sound_of_plain (.inr rfl) rfl rfl rfl rfl rfl rfl rfl
  · exact hint _ _ (sound_of_plain (.inr rfl) rfl rfl rfl rfl rfl rfl rfl)
  · exact hint _ _ (sound_of_plain (.inl rfl) rfl rfl rfl rfl rfl rfl rfl)
  · exact hint _ _ (hint _ _ (sound_of_plain (.inl rfl) rfl rfl rfl rfl rfl rfl rfl))

/-- A new interpreter is sound. -/
theorem sound_install (globalMarker thisMarker : Option String) (files : Files) :
    (bare globalMarker thisMarker files).install.Sound :=
  installs_sound.new (sound_bare globalMarker thisMarker files)

/-! Scripts that no host calls for. -/

theorem BetweenRuns.sound (h : s.BetweenRuns) : s.Sound := by
  induction h with
  | new globalMarker thisMarker files => exact sound_install globalMarker thisMarker files
  | @run s _ n source mode _ hrun ih =>
    have L := Discipline.sound_lawful s
    have hkeeps := L.runCode (L.interprets (Discipline.sound_hosts s) n) source mode ih.inv_self trivial
    exact (hkeeps.inv hrun).1

/-- In the middle of a run, what the host functions give was there at its start. -/
theorem sound_of_requested {n : Nat} {q : Request} (h : Requested n q s) :
    ∃ start, (Discipline.sound start).inv s ∧ (Discipline.sound start).Admits s q := by
  induction h with
  | @program n q s s' source mode hs hasks =>
    have L := Discipline.sound_lawful s
    refine ⟨s, Discipline.admits_of_asks (fun i' A => ?_) hasks⟩
    exact L.runCode_congr (L.interprets (Discipline.sound_hosts s) n) A source mode hs.sound.inv_self
      trivial
  | inside _ hasks ih =>
    obtain ⟨start, hs, hq⟩ := ih
    exact ⟨start, (Discipline.sound_lawful start).admits_of_request (Discipline.sound_hosts start) hs hq
      hasks⟩

/-- Scripts reach sound states only. -/
theorem Reached.sound (h : s.Reached) : s.Sound := by
  cases h with
  | between h => exact h.sound
  | asked h =>
    obtain ⟨_, hs, -⟩ := sound_of_requested h
    exact hs.1
  | answered h hend =>
    obtain ⟨start, hs, hq⟩ := sound_of_requested h
    have L := Discipline.sound_lawful start
    exact ((L.answer (Discipline.sound_hosts start) hs hq).inv hend).1

theorem retains_defineFunction (s : State) (o : ObjectId) (name : String) (callback : Callback) :
    s.Retains (s.defineFunction o name callback) :=
  (s.retains_addObject _).trans (retains_allocate _ o name _ true)

theorem retains_globalObject (s : State) (object : Object) (name : String) :
    s.Retains ((s.addObject object).2.defineGlobal name (.object (s.addObject object).1)) :=
  (s.retains_addObject object).trans (retains_allocate _ _ name _ false)

/-- After the virtual members, only objects and global names are installed. -/
theorem retains_install (s : State) :
    (builtinMethods.foldl (fun s (c, name, builtin) => s.defineMethod c name (.builtin builtin))
      s).Retains s.install := by
  unfold install
  dsimp only [List.foldl_cons, List.foldl_nil]
  refine .trans ?_ (retains_defineFunction _ _ _ _)
  refine .trans ?_ (retains_defineFunction _ _ _ _)
  refine .trans ?_ (retains_defineFunction _ _ _ _)
  refine .trans ?_ (retains_globalObject _ _ _)
  refine .trans ?_ (retains_allocate _ _ _ _ _)
  refine .trans ?_ (retains_defineFunction _ _ _ _)
  refine .trans ?_ (retains_addObject _ _)
  refine .trans ?_ (retains_globalObject _ _ _)
  refine .trans ?_ (retains_globalObject _ _ _)
  exact retains_globalObject _ _ _

/-- Where a function was named, there is a slot. -/
theorem has_default_defineFunction (s : State) (o : ObjectId) (name : String) (callback : Callback) :
    (s.defineFunction o name callback).Has (.slot default) := by
  simp only [Has, defineFunction, allocate, addSlot, bindMember, Array.size_push]
  exact Nat.succ_pos _

/-- No class is mortal, and those that every interpreter has are there. -/
def Undying (s : State) : Prop :=
  s.mortal = [] ∧ ∀ c : ClassId, c.index < builtinClassCount → s.Immortal c

theorem Undying.enlarge (hs : s.Undying) (h : s.Enlarges s') (hmortal : s'.mortal = s.mortal) :
    s'.Undying :=
  ⟨hmortal.trans hs.1, fun c hc => (hs.2 c hc).enlarge h⟩

theorem installs_undying : Installs Undying where
  object hs _ := hs.enlarge (retains_addObject _ _).enlarges rfl
  allocate _ _ hs _ _ := hs.enlarge (retains_allocate _ _ _ _ _).enlarges rfl
  method c name hs _ := hs.enlarge ((Retains.refl _).enlarges.bindMethod c name _) rfl

theorem undying_install (globalMarker thisMarker : Option String) (files : Files) :
    (bare globalMarker thisMarker files).install.Undying := by
  apply installs_undying.new
  have hclasses := classes_bare globalMarker thisMarker files
  have hmortal : (bare globalMarker thisMarker files).mortal = [] := by
    cases globalMarker <;> cases thisMarker <;> rfl
  refine ⟨hmortal, fun c hc => ⟨?_, ?_, ?_⟩⟩
  · exact (sound_bare globalMarker thisMarker files).has_builtin hc
  · have halive : ∀ i < builtinClassCount, (initialClasses.getD i default).alive = true := by decide
    rw [classInfo, hclasses]
    exact halive c.index hc
  · rw [hmortal]
    exact List.not_mem_nil

end State

namespace Host

open State

/-! Commands. -/

section
variable {r : Registers} {s s₁ : State} {command : Command} {reply : Reply}

theorem Acts.of_ok (hs : s.Sound) (hr : r.Sound s) (h : Acts r s command (.ok reply s₁)) :
    s₁.Sound ∧ s.Enlarges s₁ ∧ Told s₁ reply := by
  cases h with
  | retained _ _ h => exact ⟨h.1, h.2.1.enlarges, h.2.2⟩
  | made name base behavior keep _ =>
    refine ⟨hs.addClass rfl ?_, s.enlarges_addClass _, ?_⟩
    · intro b hb
      obtain ⟨baseName, -, rfl⟩ := Option.map_eq_some_iff.1 hb
      exact hr.has_classId hs baseName
    · intro node hnode
      rw [List.mem_singleton.1 hnode]
      simp [Has, addClass]
  | defined _ hsound hretains hf _ =>
    exact ⟨hsound.bindMethod hf _ _, hretains.enlarges.bindMethod _ _ _, told_of_nodes rfl⟩

theorem Acts.of_thrown {e : Exception} (h : Acts r s command (.thrown e s₁)) :
    s₁.Sound ∧ s.Retains s₁ ∧ s₁.HasValue e.value := by
  cases h with
  | retained _ _ h => exact h

theorem makesClass_of_defines {entry : ClassId × String} (h : command.defines? r = some entry) :
    command.makesClass = false := by
  cases command with
  | newClass => cases h
  | _ => rfl

theorem has_class_of_defines (hs : s.Sound) (hr : r.Sound s) {c : ClassId} {name : String}
    (h : command.defines? r = some (c, name)) : s.Has (.class c) := by
  unfold Command.defines? at h
  split at h
  · cases h
    exact hr.has_classId hs _
  · cases h
    exact hr.has_classId hs _
  · cases h

/-- A class in a register stays alive, and none that is left there is released. -/
theorem Acts.lasting (h : Acts r s command (.ok reply s₁)) (hr : r.Sound s) (hapart : r.Apart)
    (hbuiltin : builtinClassCount ≤ s.classes.size) (hmortal : ∀ c ∈ s.mortal, s.Has (.class c))
    (hlasting : ∀ c, r.Lasting c → s.Immortal c) :
    (r.after command reply).Apart ∧ ∀ c, (r.after command reply).Lasting c →
      s₁.Immortal c ∧ r.releasedClass? command ≠ some c := by
  cases h with
  | retained hnew _ h =>
    refine ⟨hapart.after hnew, fun c hc => ?_⟩
    obtain ⟨hold, hreleased⟩ := hapart.lasting_after hnew hc
    exact ⟨(hlasting c hold).enlarge h.2.1.enlarges, hreleased⟩
  | made name base behavior keep hcommand =>
    subst hcommand
    refine ⟨hapart.made hbuiltin ?_, fun c hc => ?_⟩
    · intro name' hfind
      exact absurd (hr.classes name' _ hfind) (Nat.lt_irrefl _)
    · rcases hapart.lasting_made hc with rfl | ⟨hold, hreleased⟩
      · refine ⟨⟨by simp [Has, addClass], ?_, ?_⟩, ?_⟩
        · rw [classInfo_addClass, if_pos rfl]
        · exact fun hmem => absurd (hmortal _ hmem) (Nat.lt_irrefl _)
        · intro hreleased
          exact absurd (hr.classes name _ (Registers.Apart.replaced_of_released hreleased).1)
            (Nat.lt_irrefl _)
      · exact ⟨(hlasting c hold).enlarge (s.enlarges_addClass _), hreleased⟩
  | defined hcommand _ hretains _ _ =>
    have hnew := makesClass_of_defines hcommand
    refine ⟨hapart.after hnew, fun c hc => ?_⟩
    obtain ⟨hold, hreleased⟩ := hapart.lasting_after hnew hc
    exact ⟨(hlasting c hold).enlarge (hretains.enlarges.bindMethod _ _ _), hreleased⟩

end

namespace Session

variable {allowed : Command → Prop}

structure Sound (session : Session) : Prop where
  state : session.state.Sound
  registers : session.registers.Sound session.state
  apart : session.registers.Apart
  mortal : ∀ c ∈ session.state.mortal, session.state.Has (.class c)
  lasting : ∀ c, session.registers.Lasting c → session.state.Immortal c

theorem sound_start (globalMarker thisMarker : Option String) (files : Files) :
    (start globalMarker thisMarker files).Sound where
  state := sound_install globalMarker thisMarker files
  registers := by
    refine ⟨fun _ _ h => (by cases h), fun _ _ h => (by cases h), ?_, fun _ _ h => (by cases h)⟩
    exact has_default_defineFunction _ _ _ _
  apart := ⟨fun _ _ h => (by cases h), fun _ _ _ h => (by cases h)⟩
  mortal c hc := by
    rw [start, (undying_install globalMarker thisMarker files).1] at hc
    cases hc
  lasting c hc := by
    rcases hc with hbuiltin | hkept | ⟨name, hname⟩
    · exact (undying_install globalMarker thisMarker files).2 c hbuiltin
    · cases hkept
    · cases hname

/-- What a command works on is held until the next one. -/
def working (session : Session) (command : Command) : List Node :=
  session.registers.operandNodes command ++
    (session.registers.replacedClass? command).toList.map .class ++
    (session.registers.replacedSlot? command).toList.map .slot

/-- All that carrying out a command can lead to. -/
inductive Performs (session : Session) (fuel : Nat) (command : Command) (target : Option String) :
    Reply × Session → Prop where
  | replied {reply : Reply} {registers : Registers} {s₁ s₂ : State}
      (hrun : act session.registers (Eval.interp fuel) command session.ready = .ok reply s₁)
      (hregisters : registers = (session.registers.after command reply).store target reply)
      (hsettles : ({ s₁ with
        mortal := (session.registers.releasedClass? command).toList ++ s₁.mortal
        held := registers.nodes ++ reply.nodes ++ session.working command } : State).Settles s₂) :
      Performs session fuel command target (reply, { session with state := s₂, registers })
  | thrown {e : Exception} {s₁ s₂ : State}
      (hrun : act session.registers (Eval.interp fuel) command session.ready = .thrown e s₁)
      (hsettles : ({ s₁ with
        held := session.registers.nodes ++ e.value.nodes ++ session.working command } : State).Settles
          s₂) :
      Performs session fuel command target (.thrown e, { session with state := s₂ })
  | unfinished : Performs session fuel command target (.unfinished, session)

theorem performs_perform (session : Session) (fuel : Nat) (command : Command)
    (target : Option String) :
    Performs session fuel command target (session.perform fuel command target) := by
  unfold perform
  dsimp only
  split
  · rename_i reply s₁ hrun
    refine .replied hrun rfl ?_
    split
    · exact .refl _
    · exact settles_settle _
  · rename_i e s₁ hrun
    exact .thrown hrun (settles_settle _)
  · exact .unfinished

/-- The host lets go of classes and holds other things. -/
theorem sound_replace (session : Session) {s : State} {registers : Registers}
    {mortal : List ClassId} {held : List Node} (hs : s.Sound) (hregisters : registers.Sound s) (hapart : registers.Apart)
    (hmortal : ∀ c ∈ mortal, s.Has (.class c)) (hheld : ∀ node ∈ held, s.Has node)
    (hlasting : ∀ c, registers.Lasting c → s.Immortal c ∧ c ∉ mortal) :
    ({ session with state := { s with mortal := mortal, held := held }, registers } : Session).Sound
    where
  state := by
    have hclosed := hs.closed
    exact ⟨⟨hheld, hclosed.frames, hclosed.global, hclosed.globalThis, hclosed.links⟩,
      hs.framed.keep rfl (fun _ _ => rfl) (fun _ => .inl), hs.bases, hs.builtin, hs.nested,
      hs.functions, hs.functionClass⟩
  registers := hregisters.mono fun _ h => h
  apart := hapart
  mortal := hmortal
  lasting c hc := ⟨(hlasting c hc).1.has, (hlasting c hc).1.alive, (hlasting c hc).2⟩

namespace Sound

variable {session : Session} (hsession : session.Sound)
include hsession

theorem ready : session.ready.Sound ∧ session.state.Retains session.ready := by
  refine hsession.state.outside ⟨_, _, _, _, rfl⟩ (fun _ => .inl) ?_
  exact fun _ hnode => .inr (hsession.registers.has_of_mem_nodes hnode)

theorem retain {s : State} (h : session.state.Retains s) (hs : s.Sound) :
    ({ session with state := s } : Session).Sound where
  state := hs
  registers := hsession.registers.retain h
  apart := hsession.apart
  mortal c hc := h.has _ (hsession.mortal c (h.mortal c hc))
  lasting c hc := (hsession.lasting c hc).enlarge h.enlarges

theorem settled {s : State} (h : session.state.Settles s) :
    ({ session with state := s } : Session).Sound :=
  hsession.retain h.retains (hsession.state.settles h)

/-- What a command works on exists. -/
theorem has_working (command : Command) {node : Node}
    (h : node ∈ session.working command) : session.state.Has node := by
  have hr := hsession.registers
  rcases List.mem_append.1 h with hfirst | hslot
  · rcases List.mem_append.1 hfirst with hoperand | hclass
    · exact hr.has_of_mem_operandNodes hoperand
    · obtain ⟨c, hc, rfl⟩ := List.mem_map.1 hclass
      have hreplaced := Option.mem_toList.1 hc
      unfold Registers.replacedClass? at hreplaced
      split at hreplaced
      · exact hr.classes _ c hreplaced
      · exact hr.classes _ c hreplaced
      · cases hreplaced
  · obtain ⟨i, hi, rfl⟩ := List.mem_map.1 hslot
    have hreplaced := Option.mem_toList.1 hi
    unfold Registers.replacedSlot? at hreplaced
    split at hreplaced
    · exact hr.slots _ i hreplaced
    · cases hreplaced

theorem has_released {command : Command} {c : ClassId}
    (h : session.registers.releasedClass? command = some c) : session.state.Has (.class c) := by
  apply hsession.has_working command
  have hreplaced := (Registers.Apart.replaced_of_released h).1
  simp [working, hreplaced]

/-- What one command does to the state. -/
theorem acts {command : Command} (hplain : command.isPlain = true) (fuel : Nat) :
    Acts session.registers session.ready command
      (act session.registers (Eval.interp fuel) command session.ready) :=
  acts_act hsession.ready.1 (hsession.registers.retain hsession.ready.2) hplain fuel

theorem performs {command : Command} (hplain : command.isPlain = true) {fuel : Nat}
    {target : Option String} {result : Reply × Session}
    (h : Performs session fuel command target result) : result.2.Sound := by
  have hacts := hsession.acts hplain fuel
  have hr := hsession.registers.retain hsession.ready.2
  have hlasting : ∀ c, session.registers.Lasting c → session.ready.Immortal c :=
    fun c hc => (hsession.lasting c hc).enlarge hsession.ready.2.enlarges
  cases h with
  | @replied reply registers s₁ s₂ hrun hregisters hsettles =>
    rw [hrun] at hacts
    obtain ⟨hs₁, hlarger, htold⟩ := hacts.of_ok hsession.ready.1 hr
    obtain ⟨hapart, hlasting₁⟩ := hacts.lasting hr hsession.apart hsession.state.builtin
      hsession.mortal hlasting
    have hafter : (session.registers.after command reply).Sound s₁ :=
      (hr.mono hlarger.has).after htold
    have hregisters₁ : registers.Sound s₁ := hregisters ▸ hafter.store target htold
    refine (session.sound_replace hs₁ hregisters₁ ?_ ?_ ?_ ?_).settled hsettles
    · rw [hregisters]
      exact hapart.store target reply
    · intro c hc
      rcases List.mem_append.1 hc with hreleased | hold
      · exact hlarger.has _ (hsession.has_released (Option.mem_toList.1 hreleased))
      · exact hlarger.has _ (hsession.mortal c (hlarger.mortal c hold))
    · intro node hnode
      rcases List.mem_append.1 hnode with hnew | hworking
      · rcases List.mem_append.1 hnew with hregister | hreply
        · exact hregisters₁.has_of_mem_nodes hregister
        · exact htold node hreply
      · exact hlarger.has _ (hsession.has_working command hworking)
    · intro c hc
      rw [hregisters, Registers.lasting_store] at hc
      obtain ⟨himmortal, hreleased⟩ := hlasting₁ c hc
      refine ⟨himmortal, fun hmem => ?_⟩
      rcases List.mem_append.1 hmem with hnew | hold
      · exact hreleased (Option.mem_toList.1 hnew)
      · exact himmortal.mortal hold
  | @thrown e s₁ s₂ hrun hsettles =>
    rw [hrun] at hacts
    obtain ⟨hs₁, hretains, he⟩ := hacts.of_thrown
    refine (session.sound_replace hs₁ (hr.retain hretains) hsession.apart ?_ ?_ ?_).settled hsettles
    · exact fun c hc => hretains.has _ (hsession.mortal c (hretains.mortal c hc))
    · intro node hnode
      rcases List.mem_append.1 hnode with hnew | hworking
      · rcases List.mem_append.1 hnew with hregister | hvalue
        · exact (hr.retain hretains).has_of_mem_nodes hregister
        · exact he node hvalue
      · exact hretains.has _ (hsession.has_working command hworking)
    · intro c hc
      have himmortal := (hlasting c hc).enlarge hretains.enlarges
      exact ⟨himmortal, himmortal.mortal⟩
  | unfinished => exact hsession

theorem steps {session' : Session} (h : Steps allowed session session') : session'.Sound := by
  cases h with
  | perform fuel command target hplain _ =>
    exact hsession.performs hplain (session.performs_perform fuel command target)
  | takeOutput =>
    have htaken : session.state.takeOutput.2.2.Sound ∧
        session.state.Retains session.state.takeOutput.2.2 :=
      hsession.state.outside ⟨_, _, _, _, rfl⟩ (fun _ => .inl) fun _ => .inl
    exact hsession.retain htaken.2 htaken.1

theorem later {session' : Session} (h : Later allowed session session') : session'.Sound := by
  induction h with
  | refl => exact hsession
  | tail _ hstep ih => exact ih.steps hstep

/-! Functions. -/

theorem requested {n : Nat} {q : Request} {s : State} (h : session.Requested n q s) :
    (Discipline.sound session.ready).inv s ∧ (Discipline.sound session.ready).Admits s q := by
  induction h with
  | @command n q s command hplain hasks =>
    apply Discipline.admits_of_asks ?_ hasks
    intro i A
    have hoperands := List.all_eq_true.1 (Bool.and_eq_true_iff.1 hplain).1
    exact act_congr hsession.ready.1 (hsession.registers.retain hsession.ready.2) hoperands n A
  | inside _ hasks ih =>
    exact (Discipline.sound_lawful session.ready).admits_of_request
      (Discipline.sound_hosts session.ready) ih.1 ih.2 hasks

theorem visits {s : State} (h : session.Visits s) : s.Sound ∧ session.ready.Retains s := by
  induction h with
  | ready => exact ⟨hsession.ready.1, .refl _⟩
  | asked h =>
    obtain ⟨⟨hs, hretains, -⟩, -⟩ := hsession.requested h
    exact ⟨hs, hretains⟩
  | hold _ hnodes ih =>
    obtain ⟨hs, hretains⟩ := ih.1.hold hnodes
    exact ⟨hs, ih.2.trans hretains⟩
  | newString text _ ih => exact ⟨ih.1.newString text, ih.2.trans (retains_addObject _ _)⟩
  | pushCall name _ hthis ih =>
    obtain ⟨hs, hretains⟩ := ih.1.pushCall name hthis
    exact ⟨hs, ih.2.trans hretains⟩

end Sound

theorem Reached.sound {session : Session} (h : Reached allowed session) : session.Sound := by
  obtain ⟨globalMarker, thisMarker, files, hlater⟩ := h
  exact (sound_start globalMarker thisMarker files).later hlater

end Session

end Host

end Scripting
