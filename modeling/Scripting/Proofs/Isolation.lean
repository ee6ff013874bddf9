import Scripting.Proofs.Isolation.Runs

/-!
Local names are isolated: a call neither changes the local names of its callers nor depends on them.

A scope is hidden from a call if it exists when the call begins. Two states that agree in all that is not
hidden (`State.AgreeOutside`) are put in lockstep behind the veil, once the frame of the call is on the
stack. Main statement: `locals_isolated`.
-/

namespace Scripting

/-- Two computations end alike, with the same result or the same exception, in states that are related. -/
inductive Outcome.SameEnd {α : Type} (P : State → State → Prop) : Outcome α → Outcome α → Prop where
  | ok {a : α} {s t : State} (h : P s t) : SameEnd P (.ok a s) (.ok a t)
  | thrown {e : Exception} {s t : State} (h : P s t) : SameEnd P (.thrown e s) (.thrown e t)
  | outOfFuel : SameEnd P .outOfFuel .outOfFuel
  | needsFile (path : String) : SameEnd P (.needsFile path) (.needsFile path)

namespace Outcome.SameEnd

variable {α : Type} {P Q : State → State → Prop} {x y : Outcome α}

theorem mono (h : SameEnd P x y) (hPQ : ∀ s t, P s t → Q s t) : SameEnd Q x y := by
  cases h with
  | ok h => exact .ok (hPQ _ _ h)
  | thrown h => exact .thrown (hPQ _ _ h)
  | outOfFuel => exact .outOfFuel
  | needsFile path => exact .needsFile path

/-- A computation beside itself. -/
theorem of_endsIn (h : SameEnd P x x) {s : State} (hs : x.EndsIn s) : P s s := by
  rcases hs with ⟨a, rfl⟩ | ⟨e, rfl⟩
  · cases h with
    | ok h => exact h
  · cases h with
    | thrown h => exact h

end Outcome.SameEnd

namespace State

/-- Two states that differ at most in what is hidden: in what else they have, in the scopes that there
are, and in the class, the payload and the members of every other object they agree. Slots have no
identity here: a member is given by its name and what its slot holds. -/
structure AgreeOutside (hidden : ObjectId → Prop) (s t : State) : Prop where
  setting : s.setting = t.setting
  size : s.objects.size = t.objects.size
  scopes : ∀ o, s.IsScope o ↔ t.IsScope o
  classId : ∀ o, ¬hidden o → (s.object o).classId = (t.object o).classId
  payload : ∀ o, ¬hidden o → (s.object o).payload = (t.object o).payload
  members : ∀ o, ¬hidden o → s.ownMembers o = t.ownMembers o

/-- A call that scripts can make. -/
structure MayCall (s : State) (v : Value) (args : List Value) : Prop where
  isSealed : s.Sealed
  callee : s.Reaches v
  args : ∀ a ∈ args, s.Holds a

/-- Callees of two calls: both lead to the same value, and were found alike. -/
def SameCallee (s t : State) (v w : Value) : Prop :=
  s.deref v = t.deref w ∧ v.FoundAlike w

/-- The ends of two calls: the scopes that existed before are as they were, and the states agree in all
else. -/
structure Undisturbed (s t s' t' : State) : Prop where
  left : s.LeavesScopes s'
  right : t.LeavesScopes t'
  agree : s'.AgreeOutside s.IsScope t'

theorem Holds.shown {s : State} {v : Value} (h : s.Holds v) : Shown s v := by
  cases v with
  | object o => exact h.2
  | reference r => exact h.elim
  | _ => trivial

theorem AgreeOutside.refl (hidden : ObjectId → Prop) (s : State) : s.AgreeOutside hidden s :=
  ⟨rfl, rfl, fun _ => .rfl, fun _ _ => rfl, fun _ _ => rfl, fun _ _ => rfl⟩

end State

open State

variable {s t : State}

theorem State.setting_pushCall (s : State) (name : String) (container : Option ObjectId) :
    (s.pushCall name container).setting = { s.setting with
      frames := ⟨name, container.getD s.setting.globalThis, ⟨s.objects.size⟩⟩ :: s.setting.frames } :=
  rfl

/-! From states that agree to states behind a veil, and back. -/

/-- The members of an object in two states that agree, with their slots. -/
theorem State.AgreeOutside.related (A : s.AgreeOutside s.IsScope t) {o : ObjectId}
    (ho : ¬s.IsScope o) :
    Table.Related (fun i j => s.slot i = t.slot j ∧
        ∃ name, s.own? o name = some i ∧ t.own? o name = some j)
      (s.object o).members (t.object o).members :=
  Table.related_of_map_entries (A.members o ho)

theorem State.AgreeOutside.slot (A : s.AgreeOutside s.IsScope t) {i j : SlotId}
    (hij : Paired s t i j) : s.slot i = t.slot j := by
  rcases hij with ⟨o, name, ho, hi, hj⟩ | ⟨k, hi, hj⟩
  · have hfound := (A.related ho).find? name
    rw [show (s.object o).members.find? name = some i from hi,
      show (t.object o).members.find? name = some j from hj] at hfound
    cases hfound with
    | some h => exact h.1
  · -- neither of the two exists yet
    rw [slot_of_size_le s (by omega), slot_of_size_le t (by omega)]

theorem State.AgreeOutside.starts (A : s.AgreeOutside s.IsScope t) (hs : s.Sealed) (ht : t.Sealed) :
    Starts s t :=
  ⟨hs, ht, A.size, A.scopes⟩

/-- Without their frames, two states that agree have nothing in sight that is hidden. -/
theorem State.AgreeOutside.veiled (A : s.AgreeOutside s.IsScope t) (hs : s.Sealed) (ht : t.Sealed) :
    Veiled s t ⟨{ s with frames := [] }, { t with frames := [] }⟩ where
  setting := congrArg (fun g => { g with frames := [] }) A.setting
  immortal := ⟨hs.immortal, ht.immortal⟩
  global := hs.global.2
  globalThis := hs.globalThis.2
  current := nofun
  methods c name f hf := (hs.methods c name f hf).2
  size_le := Nat.le_refl _
  size := A.size
  added := ⟨0, rfl, rfl⟩
  object o ho := by
    refine ⟨A.classId o ho, A.payload o ho, ?_, ?_, hs.natives o⟩
    · apply (A.related ho).mono
      rintro i j ⟨-, name, hi, hj⟩
      exact .inl ⟨o, name, ho, hi, hj⟩
    · -- only a scope has a parent
      intro parent hparent
      exact absurd (isScope_of_parentScope? hparent) ho
  slot i j hij := A.slot hij
  shown i j _ := (hs.slots i).shown
  leaves_left := ⟨fun _ _ => rfl, fun _ _ _ _ _ => rfl⟩
  leaves_right := ⟨fun _ _ => rfl, fun _ _ _ _ _ => rfl⟩

/-- Behind a veil, whatever the frames are. -/
theorem Veiled.undisturbed {σ : Duo} (h : Veiled s t σ) (S : Starts s t) {frames frames' : List Frame}
    (hframes : frames = frames') :
    Undisturbed s t { σ.left with frames := frames } { σ.right with frames := frames' } where
  left := ⟨h.leaves_left.object, h.leaves_left.slot⟩
  right := ⟨h.leaves_right.object, h.leaves_right.slot⟩
  agree := by
    subst hframes
    refine ⟨congrArg (fun g => { g with frames := frames }) h.setting, h.size, ?_,
      fun o ho => (h.object o ho).classId, fun o ho => (h.object o ho).payload, ?_⟩
    · intro o
      change (σ.left.object o).payload.isScope = true ↔ (σ.right.object o).payload.isScope = true
      by_cases ho : s.IsScope o
      · have ho' := (S.scopes o).1 ho
        rw [h.leaves_left.object o ho, h.leaves_right.object o ho']
        exact S.scopes o
      · rw [(h.object o ho).payload]
    · intro o ho
      apply (h.object o ho).members.map_entries
      intro name i j hij
      exact congrArg (Prod.mk name) (h.slot i j hij)

/-! Faults. -/

/-- A new exception with its message. -/
def State.addException (s : State) (c : ClassId) (data : ExceptionData) : ObjectId × State :=
  let (o, s) := s.addObject { classId := some c, payload := .exception data }
  let (text, s) := s.newString data.message
  (o, (s.allocate o "message" (.object text) false).2)

/-- What is thrown and where. -/
theorem Eval.fail_eq {α : Type} (fault : Fault) (s : State) :
    (Eval.fail fault s : Outcome α) = .thrown ⟨.object ⟨s.objects.size⟩, s.backtrace⟩
      (s.addException .exception ⟨fault.message, s.backtrace⟩).2 := rfl

theorem Veiled.addException {σ : Duo} (h : Veiled s t σ) (S : Starts s t) (c : ClassId)
    (data : ExceptionData) : Veiled s t (σ.map fun u => (u.addException c data).2) := by
  have hobject := h.addObject S (Seen.plain ⟨some c, ∅, .exception data⟩ rfl rfl rfl)
  have htext := hobject.addObject S (Seen.plain ⟨some .string, ∅, .string data.message⟩ rfl rfl rfl)
  have ho : ¬s.IsScope ⟨σ.left.objects.size⟩ := h.new_not_scope (Nat.le_refl _)
  have hmessage : Shown s (.object ⟨(σ.left.objects.push ⟨some c, ∅, .exception data⟩).size⟩) :=
    hobject.new_not_scope (Nat.le_refl _)
  have hnew := htext.allocate S ho "message" hmessage false
  -- the new objects have the same identifiers on the right
  have hsize : (σ.left.objects.push ⟨some c, ∅, .exception data⟩).size =
      (σ.right.objects.push ⟨some c, ∅, .exception data⟩).size := hobject.size
  simp only [Duo.map, State.addException, State.newString, State.addObject, ← h.size, ← hsize]
    at hnew ⊢
  exact hnew

/-! Calls. -/

namespace State.AgreeOutside

variable (A : s.AgreeOutside s.IsScope t)
include A

theorem backtrace : s.backtrace = t.backtrace := by
  rw [State.backtrace, State.backtrace, show s.frames = t.frames from congrArg Setting.frames A.setting]

theorem typeName {o : ObjectId} (ho : ¬s.IsScope o) : s.typeName o = t.typeName o := by
  have hclasses : s.classes = t.classes := congrArg Setting.classes A.setting
  simp only [State.typeName, State.classOf?, A.classId o ho, funext (classInfo_congr hclasses)]

theorem functionName? {o : ObjectId} (ho : ¬s.IsScope o) :
    (s.object o).functionName? = (t.object o).functionName? := by
  rw [Object.functionName?, Object.functionName?, Object.callable?, Object.callable?,
    A.payload o ho]

variable (hs : s.Sealed) (ht : t.Sealed)
include hs ht

/-- A fault is the same object in both states. -/
theorem fail {α : Type} (fault : Fault) :
    (Eval.fail fault s : Outcome α).SameEnd (Undisturbed s t) (Eval.fail fault t) := by
  have S := A.starts hs ht
  have h := (A.veiled hs ht).addException S .exception ⟨fault.message, s.backtrace⟩
  have hend : Undisturbed s t (s.addException .exception ⟨fault.message, s.backtrace⟩).2
      (t.addException .exception ⟨fault.message, s.backtrace⟩).2 :=
    h.undisturbed S (congrArg Setting.frames A.setting)
  rw [Eval.fail_eq, Eval.fail_eq, ← A.size, ← A.backtrace]
  exact .thrown hend

theorem pushCall (name : String) {container : Option ObjectId}
    (hcontainer : ∀ o, container = some o → s.Public o) :
    Veiled s t ⟨s.pushCall name container, t.pushCall name container⟩ := by
  have S := A.starts hs ht
  have h := A.veiled hs ht
  refine (h.addScope S none nofun).outside ⟨⟨_, _, _, _, rfl⟩, _, _, _, _, rfl⟩ ?_ ?_
  · dsimp only
    rw [setting_pushCall, setting_pushCall, A.setting, A.size]
  · rintro _ ⟨⟩
    refine ⟨?_, h.new_not_scope (Nat.le_refl _)⟩
    cases container with
    | none => exact hs.globalThis.2
    | some o => exact (hcontainer o rfl).2

/-- Once their frames are on the stack, two calls of an object go in lockstep. -/
theorem inFrame (n : Nat) (name : String) {container : Option ObjectId} {callee : ObjectId}
    {args : List Value} (hcontainer : ∀ o, container = some o → s.Public o)
    (hcallee : s.Public callee) (hargs : ∀ a ∈ args, s.Holds a) :
    (Eval.inFrame (·.pushCall name container)
        (Eval.callObject (Eval.interp n) callee (container.getD callee) args) s).SameEnd
      (Undisturbed s t)
      (Eval.inFrame (·.pushCall name container)
        (Eval.callObject (Eval.interp n) callee (container.getD callee) args) t) := by
  have S := A.starts hs ht
  have L := Lockstep.veiled_lawful S
  have I := L.interprets Lockstep.veiled_hosts n
  have h := A.pushCall hs ht name hcontainer
  have hthis : ¬s.IsScope (container.getD callee) := by
    cases container with
    | none => exact hcallee.2
    | some o => exact (hcontainer o rfl).2
  have hend := L.callObject I (Q := Lockstep.Alike (Lockstep.veiled s t).stored)
    (fun _ _ hv => ⟨rfl, hv⟩) (fun f g _ hf hcallback => absurd hcallback
      ((h.object callee hcallee.2).native f g hf)) h hcallee.2 hthis fun a ha => (hargs a ha).shown
  unfold Lockstep.Keeps at hend
  unfold Eval.inFrame
  dsimp only at hend ⊢
  generalize Eval.callObject _ _ _ _ (s.pushCall name container) = x at hend ⊢
  generalize Eval.callObject _ _ _ _ (t.pushCall name container) = y at hend ⊢
  cases hend with
  | ok hinv _ hresult =>
    obtain ⟨rfl, -⟩ := hresult
    exact .ok (hinv.undisturbed S (congrArg List.tail hinv.frames))
  | thrown hinv _ _ => exact .thrown (hinv.undisturbed S (congrArg List.tail hinv.frames))
  | outOfFuel => exact .outOfFuel
  | needsFile path => exact .needsFile path
  | lacking h => exact False.elim h

/-- A call goes the same way in both states. -/
theorem call (n : Nat) {v w : Value} {args : List Value} (hvw : s.SameCallee t v w)
    (hv : s.Reaches v) (hargs : ∀ a ∈ args, s.Holds a) :
    (Eval.call n v args s).SameEnd (Undisturbed s t) (Eval.call n w args t) := by
  obtain ⟨hderef, hfound⟩ := hvw
  cases n with
  | zero => exact .outOfFuel
  | succ n =>
    change (Eval.callStep (Eval.interp n) v args s).SameEnd _ (Eval.callStep (Eval.interp n) w args t)
    have hholds := hs.deref hv
    by_cases hobject : ∃ callee, s.deref v = .object callee
    · obtain ⟨callee, hcallee⟩ := hobject
      rw [hcallee] at hholds
      rw [Eval.callStep_of_immortal args hs.immortal hcallee,
        Eval.callStep_of_immortal args ht.immortal (hderef ▸ hcallee)]
      have hcontainer : ∀ o, Eval.containerOf v = some o → s.Public o := by
        intro o ho
        cases v with
        | reference r => exact hv o ho
        | _ => cases ho
      rw [← hfound.frameName (A.functionName? hholds.2) fun o ho => A.typeName (hcontainer o ho).2,
        ← hfound.containerOf]
      exact A.inFrame hs ht n _ hcontainer hholds hargs
    · have hnone := not_exists.1 hobject
      rw [Eval.callStep_of_not_object args hnone, Eval.callStep_of_not_object args (hderef ▸ hnone)]
      exact A.fail hs ht _

end State.AgreeOutside

/-! What a function binds locally is hidden from the calls that it makes. -/

theorem State.isScope_pushCall (s : State) (name : String) (container : Option ObjectId) :
    (s.pushCall name container).IsScope (s.pushCall name container).currentScope := by
  change ((s.addObject { payload := .scope none }).2.object ⟨s.objects.size⟩).payload.isScope = true
  rw [object_addObject, if_pos rfl]
  rfl

theorem State.Sealed.agreeOutside_allocate (hs : s.Sealed) {scope : ObjectId}
    (hscope : s.IsScope scope) (name : String) (v : Value) (readOnly : Bool) :
    s.AgreeOutside s.IsScope (s.allocate scope name v readOnly).2 := by
  have hobject : ∀ o, ¬s.IsScope o → s.object o = (s.allocate scope name v readOnly).2.object o := by
    intro o ho
    rw [object_allocate_of_ne]
    rintro rfl
    exact ho hscope
  refine ⟨rfl, ?_, ?_, ?_, ?_, ?_⟩
  · simp [State.allocate, State.addSlot, State.bindMember]
  · intro o
    rw [IsScope, IsScope, payload_allocate]
  · exact fun o ho => congrArg Object.classId (hobject o ho)
  · exact fun o ho => congrArg Object.payload (hobject o ho)
  · intro o ho
    unfold State.ownMembers
    rw [← hobject o ho]
    apply List.map_congr_left
    rintro ⟨other, i⟩ hi
    obtain ⟨k, hk⟩ := List.mem_iff_getElem?.1 hi
    have hown : s.own? o other = some i :=
      (Table.find?_eq_some_iff _ _ _).2 ⟨k, by simpa [Table.entries] using hk⟩
    have hlt := hs.owned o other i hown
    dsimp only
    rw [slot_allocate, if_neg (by omega)]

/-- Calls neither touch the local names of their callers nor depend on them. A call expression of a
script makes its call once the callee and the arguments are evaluated, and every call that an interpreter
is asked for while it runs scripts is one that scripts can make. Such a call leaves every scope that
existed before, and the slots of its names, as they were. In two states that differ at most in what those
scopes contain it ends alike: with the same result or exception, the same output, and the same changes of
all other objects. -/
theorem locals_isolated :
    (∀ s : State, s.BetweenRuns → s.Sealed) ∧
    (∀ (n : Nat) (span : Span) (callee : Expr) (args : List Expr) (v : Value) (values : List Value)
        (s s₁ s₂ : State), Requested (n + 1) (.evaluate (.call span callee args)) s →
      Eval.evaluate n callee s = .ok v s₁ → Eval.arguments (Eval.interp n) args s₁ = .ok values s₂ →
      Requested n (.call v values) s₂) ∧
    (∀ (n : Nat) (v : Value) (args : List Value) (s : State),
      Requested n (.call v args) s → s.MayCall v args) ∧
    (∀ (n : Nat) (v : Value) (args : List Value) (s s' : State), s.MayCall v args →
      (Eval.call n v args s).EndsIn s' → s.LeavesScopes s') ∧
    ∀ (n : Nat) (v w : Value) (args : List Value) (s t : State), s.MayCall v args →
      t.MayCall w args → s.AgreeOutside s.IsScope t → s.SameCallee t v w →
      (Eval.call n v args s).SameEnd (AgreeOutside s.IsScope) (Eval.call n w args t) := by
  have L := Discipline.sealed_lawful
  refine ⟨?_, ?_, ?_, ?_, ?_⟩
  · intro s hs
    exact L.betweenRuns Discipline.sealed_hosts sealed_install (fun _ => trivial) hs
  · intro n span callee args v values s s₁ s₂ hcall hcallee hargs
    have hs := (L.requested Discipline.sealed_hosts sealed_install (fun _ => trivial) hcall).1
    have hs₁ : s₁.Sealed := ((L.interprets Discipline.sealed_hosts n).evaluate trivial hs).inv
      (.inl ⟨v, hcallee⟩)
    have hheld := (Eval.holding_of_immortal hs₁.immortal v.nodes _).trans hargs
    exact .inside hcall (Request.asks_call hcallee hheld)
  · intro n v args s hcall
    obtain ⟨hs, hv, hargs⟩ := L.requested Discipline.sealed_hosts sealed_install (fun _ => trivial) hcall
    exact ⟨hs, hv, hargs⟩
  · intro n v args s s' h hend
    have hsame := (AgreeOutside.refl s.IsScope s).call h.isSealed h.isSealed n ⟨rfl, .inl rfl⟩
      h.callee h.args
    exact (hsame.of_endsIn hend).left
  · intro n v w args s t hs ht A hvw
    exact (A.call hs.isSealed ht.isSealed n hvw hs.callee hs.args).mono fun _ _ h => h.agree

/-- A new interpreter with a function that gives `x`, within a call of `main`. -/
def State.inMain : State :=
  ((State.initial default).newFunction (.script (.mk {} none []
    [.mk none (.returnValue {} (some (.identifier {} "x")))]))).2.pushCall "main()" none

/-- Where `main` has a local name `x`, the function ends as it does where there is none. -/
theorem locals_isolated_unbound :
    (Eval.call 100 (.object ⟨(State.initial default).objects.size⟩) [] inMain).SameEnd
      (AgreeOutside inMain.IsScope)
      (Eval.call 100 (.object ⟨(State.initial default).objects.size⟩) []
        (inMain.allocate inMain.currentScope "x" (.int 1) false).2) := by
  have hinitial : (State.initial default).Sealed := sealed_install none none default
  have hmakes : (State.initial default).Makes (fun _ => True) _ := .script (.mk {} none []
    [.mk none (.returnValue {} (some (.identifier {} "x")))]) fun _ _ => trivial
  obtain ⟨hfunction, hcallee⟩ := Discipline.sealed_make hinitial hmakes
  have hs : inMain.Sealed := hfunction.pushCall "main()" nofun
  have hpublic : inMain.Public ⟨(State.initial default).objects.size⟩ :=
    hcallee.mono (grows_pushCall _ _ _)
  apply locals_isolated.2.2.2.2
  · exact ⟨hs, hpublic, nofun⟩
  · exact ⟨hs.allocate (v := .int 1) trivial _ _ _, hpublic.mono (grows_allocate _ _ _ _ _), nofun⟩
  · exact hs.agreeOutside_allocate (isScope_pushCall _ _ _) _ _ _
  · exact ⟨rfl, .inl rfl⟩

end Scripting
