import Mathlib.Logic.Relation
import Scripting.Proofs.Ranked

/-!
References are followed before anything is stored, passed, returned or thrown.

Main statement: in every state that an interpreter and its host can reach, following references ends;
and if no slot holds a reference or an invalid value, none ever does (`references_end`).
-/

namespace Scripting

/-- A value that can be stored: neither a reference nor invalid. -/
def Value.IsProper (v : Value) : Prop :=
  v.isReference = false ∧ v ≠ .invalid
deriving Decidable

/-- A function of the host that gives no invalid value. -/
def HostFunction.IsSound : HostFunction → Prop
  | .constant v => v ≠ .invalid
  | .invalid => False
  | _ => True

namespace State

/-- No slot holds a reference or an invalid value, and the host supplies no invalid one. -/
structure Clean (s : State) : Prop where
  slots : ∀ i, (s.slot i).value.IsProper
  hosts : ∀ {o f h}, (s.object o).callable? = some (.native f) → f.callback = .host h → h.IsSound

variable {s : State}

theorem Clean.deref (hs : s.Clean) {v : Value} (h : v ≠ .invalid) : (s.deref v).IsProper := by
  cases v with
  | reference r =>
    have hread := hs.slots r.slot
    rw [deref_reference s hread.1]
    exact hread
  | invalid => exact absurd rfl h
  | _ => exact ⟨rfl, by simp [State.deref, followUpTo]⟩

theorem Clean.addSlot (hs : s.Clean) (slot : Slot) (h : slot.value.IsProper) :
    (s.addSlot slot).2.Clean where
  slots i := by
    rw [slot_addSlot]
    split
    · exact h
    · exact hs.slots i
  hosts hf := hs.hosts hf

theorem Clean.writeSlot (hs : s.Clean) (j : SlotId) {v : Value} (h : v.IsProper) :
    (s.writeSlot j v).Clean where
  slots i := by
    rw [slot_writeSlot]
    split
    · exact h
    · exact hs.slots i
  hosts hf := hs.hosts hf

/-- The functions that objects stand for may stay or get lost. -/
theorem Clean.of_callables {s' : State} (hs : s.Clean) (hslots : s'.slots = s.slots)
    (h : ∀ o f, (s'.object o).callable? = some (.native f) →
      (s.object o).callable? = some (.native f) ∨ ∀ g, f.callback ≠ .host g) : s'.Clean where
  slots i := by
    have hi := hs.slots i
    rwa [slot, ← hslots] at hi
  hosts {o f g} hf hg := by
    obtain hold | hnone := h o f hf
    · exact hs.hosts hold hg
    · exact absurd hg (hnone g)

theorem Clean.of_heap {s' : State} (hs : s.Clean) (hslots : s'.slots = s.slots)
    (hobjects : s'.objects = s.objects) : s'.Clean := by
  refine hs.of_callables hslots ?_
  intro o f hf
  rw [object, hobjects] at hf
  exact .inl hf

theorem callable?_of_payload {o o' : Object} (h : o'.payload = o.payload) :
    o'.callable? = o.callable? := by
  rw [Object.callable?, Object.callable?, h]

theorem Clean.allocate (hs : s.Clean) {v : Value} (h : v.IsProper) (o : ObjectId) (name : String)
    (readOnly : Bool) : (s.allocate o name v readOnly).2.Clean := by
  refine (hs.addSlot ⟨v, readOnly, some name⟩ h).of_callables rfl ?_
  intro o' f hf
  rw [callable?_of_payload (payload_allocate s o o' name v readOnly)] at hf
  exact .inl hf

theorem Clean.addObject (hs : s.Clean) {object : Object}
    (h : ∀ f g, object.callable? = some (.native f) → f.callback ≠ .host g) :
    (s.addObject object).2.Clean := by
  refine hs.of_callables rfl ?_
  intro o f hf
  rw [object_addObject] at hf
  split at hf
  · exact .inr fun g => h f g hf
  · exact .inl hf

theorem Clean.setHostData (hs : s.Clean) (o : ObjectId) (data : HostData) :
    (s.setHostData o data).Clean := by
  refine hs.of_callables rfl ?_
  intro o' f hf
  rw [State.setHostData, object_modify] at hf
  split at hf
  · cases hf
  · exact .inl hf

/-! The state of a new interpreter. -/

theorem clean_of_empty (h : s.slots = #[]) (hobjects : ∀ o, (s.object o).callable? = none) :
    s.Clean where
  slots i := by
    rw [slot_of_size_le s (by simp [h])]
    decide
  hosts hf := by
    rw [hobjects] at hf
    cases hf

theorem clean_bare (globalMarker thisMarker : Option String) (files : Files) :
    (bare globalMarker thisMarker files).Clean := by
  have hplain : ∀ {s : State} (c c'), s.slots = #[] → s.objects = #[⟨c, {}, .none⟩, ⟨c', {}, .none⟩] →
      s.Clean := by
    intro s c c' hslots hobjects
    refine clean_of_empty hslots ?_
    rintro ⟨_ | _ | i⟩ <;> simp [object, hobjects, Object.callable?]
    rfl
  have hint : ∀ {s : State} (o name), s.Clean → (s.allocate o name (.int 1) false).2.Clean :=
    fun o name hs => hs.allocate ⟨rfl, Value.noConfusion⟩ o name false
  cases globalMarker <;> cases thisMarker
  · exact hplain _ _ rfl rfl
  · exact hint _ _ (hplain _ _ rfl rfl)
  · exact hint _ _ (hplain _ _ rfl rfl)
  · exact hint _ _ (hint _ _ (hplain _ _ rfl rfl))

theorem installs_clean : Installs Clean where
  object hs ho := hs.addObject (by
    intro f g hf
    cases ho <;> cases hf
    exact Callback.noConfusion)
  allocate name readOnly hs _ _ := hs.allocate ⟨rfl, Value.noConfusion⟩ _ name readOnly
  method _ _ hs _ := hs.of_heap rfl rfl

end State

namespace Discipline

/-- No reference and no invalid value is stored, passed, returned or thrown. -/
def clean : Discipline where
  inv s := s.Clean
  leads _ _ := True
  good _ v := v ≠ .invalid
  stored _ v := v.IsProper
  raised _ e := e.value.IsProper
  expr _ := True
  stmt _ := True
  host f := f.IsSound

theorem clean_step {s s' : State} (h : s'.Clean) : clean.Step s s' :=
  ⟨h, trivial⟩

theorem clean_pushes {s s₁ : State} (h : s₁.Clean) : clean.Pushes s s₁ where
  inv := h
  good _ hv := hv
  stored _ hv := hv
  back _ hs' _ := clean_step (State.Clean.of_heap hs' rfl rfl)

theorem isProper_object (o : ObjectId) : (Value.object o).IsProper :=
  ⟨rfl, Value.noConfusion⟩

theorem clean_scope {s : State} (hs : s.Clean) (parent : Option ObjectId) :
    (s.addObject { payload := .scope parent }).2.Clean :=
  hs.addObject fun _ _ hf => by cases hf

theorem clean_lawful : clean.Lawful where
  refl _ := trivial
  trans _ _ := trivial
  good_mono _ h := h
  stored_mono _ h := h
  raised_mono _ h := h
  good_of_stored h := h.2
  literal := by
    intro v _ h
    cases v <;> first | exact ⟨rfl, Value.noConfusion⟩ | cases h
  deref hs hv := hs.deref hv
  this _ := isProper_object _
  global _ := isProper_object _
  container _ _ := isProper_object _
  read hs _ := (hs.slots _).2
  raise _ h := h
  raised_value h := h
  make hs hmakes _ := ⟨clean_step (hs.addObject hmakes.callback_ne_host), isProper_object _⟩
  allocate name readOnly hs _ hv :=
    ⟨clean_step (hs.allocate hv _ name readOnly), fun _ => Value.noConfusion⟩
  method hs _ _ := ⟨clean_step (hs.addSlot _ (isProper_object _)), Value.noConfusion⟩
  own _ _ _ := Value.noConfusion
  found _ _ := Value.noConfusion
  write hs _ _ hv := clean_step (hs.writeSlot _ hv)
  output _ hs := clean_step (hs.of_heap rfl rfl)
  errorOutput _ hs := clean_step (hs.of_heap rfl rfl)
  hold hs _ := clean_step (hs.of_heap rfl rfl)
  free _ hs _ := clean_step (hs.of_heap rfl rfl)
  settle := by
    intro s classes hs
    obtain ⟨_, _, h⟩ := s.settleAmong_sameButLives classes
    exact clean_step (hs.of_heap (by rw [h]) (by rw [h]))
  pushCall _ hs _ := clean_pushes ((clean_scope hs none).of_heap rfl rfl)
  pushGlobal _ hs := clean_pushes (hs.of_heap rfl rfl)
  pushBlock {s} hs := clean_pushes ((clean_scope hs (some s.currentScope)).of_heap rfl rfl)
  good_pop h := h
  stored_pop h := h
  raised_pop h := h
  expr_parts {e} _ := by cases e <;> simp [Expr.Parts, clean]
  stmt_parts {statement} _ := by cases statement <;> simp [Stmt.Parts, clean]
  script _ _ _ _ := trivial
  program _ _ _ _ _ := trivial
  hostOf hs hf hg := hs.hosts hf hg

theorem clean_hosts : clean.twin.Hosts :=
  clean_lawful.hosts (fun o data hs => clean_step (hs.setHostData o data)) (fun h _ => h)
    fun h _ => h.elim

end Discipline

/-- However a computation ends, it leaves a clean state. It gives a value with a property, or throws a
proper one. -/
structure Outcome.StaysClean {α : Type} (Q : α → Prop) (outcome : Outcome α) : Prop where
  ok : ∀ a s, outcome = .ok a s → s.Clean ∧ Q a
  thrown : ∀ e s, outcome = .thrown e s → s.Clean ∧ e.value.IsProper

theorem Discipline.staysClean_of_ends {α : Type} {s : State} {Q : State → α → Prop} {R : α → Prop}
    {outcome : Outcome α} (h : clean.Ends s Q outcome) (hQ : ∀ s a, Q s a → R a) :
    outcome.StaysClean R where
  ok := by
    rintro a s' rfl
    exact ⟨h.1, hQ s' a h.2.2⟩
  thrown := by
    rintro e s' rfl
    exact ⟨h.1, h.2.2⟩

/-- What a source text gives: a proper value, or an exception with one. -/
def ProperResult : Except RunError Value → Prop
  | .ok v => v.IsProper
  | .error (.uncaught e) => e.value.IsProper
  | .error _ => True

open Eval Discipline State in
/-- Every operation keeps a ranking, so following references ends in every state that can be reached,
and with it the conversions. Where no reference and no invalid value is stored, no evaluation stores,
passes, returns or throws one. -/
theorem references_end :
    (∀ s s' : State, s.Ranked → s.Operates s' → s'.Ranked) ∧
    (∀ globalMarker thisMarker files s,
      Relation.ReflTransGen Operates (bare globalMarker thisMarker files).install s →
      (∀ v, s.Follows v (s.deref v) ∧ (s.deref v).isReference = false) ∧
      ∀ r, s.truth (.reference r) = s.truth (s.read r) ∧
        toInt (.reference r) s = toInt (s.read r) s ∧
        toObject (.reference r) s = toObject (s.read r) s) ∧
    (∀ globalMarker thisMarker files, (bare globalMarker thisMarker files).install.Clean) ∧
    ∀ s : State, s.Clean → ∀ n,
      (∀ e, (evaluate n e s).StaysClean (· ≠ .invalid)) ∧
      (∀ statement, (execute n statement s).StaysClean fun c => ∀ v, c = .returned v → v.IsProper) ∧
      (∀ source mode, (run n source mode s).StaysClean ProperResult) ∧
      (∀ args, (arguments (interp n) args s).StaysClean fun values => ∀ v ∈ values, v.IsProper) ∧
      ∀ definition args, (∀ a ∈ args, a.IsProper) →
        (callScript (interp n) definition args s).StaysClean Value.IsProper := by
  refine ⟨fun s s' hs h => hs.operates h, ?_, ?_, ?_⟩
  · intro globalMarker thisMarker files s h
    have hs : s.Ranked := by
      induction h with
      | refl => exact ranked_install globalMarker thisMarker files
      | tail _ h ih => exact ih.operates h
    refine ⟨fun v => ⟨hs.follows_deref v, hs.isReference_deref v⟩, fun r => ?_⟩
    exact ⟨hs.truth_reference r, hs.toInt_reference r, hs.toObject_reference r⟩
  · exact fun globalMarker thisMarker files =>
      installs_clean.new (clean_bare globalMarker thisMarker files)
  · intro s hs n
    have L := clean_lawful
    have I := L.interprets clean_hosts n
    refine ⟨?_, ?_, ?_, ?_, ?_⟩
    · exact fun e => staysClean_of_ends (I.evaluate trivial hs) fun _ _ hv => hv
    · intro statement
      refine staysClean_of_ends (I.execute trivial hs) ?_
      rintro _ c hc v rfl
      exact hc
    · intro source mode
      refine staysClean_of_ends (L.runCode I source mode hs trivial) ?_
      intro _ r hr
      match r with
      | .ok v => exact hr
      | .error (.uncaught e) => exact hr
      | .error (.lexer _) | .error (.parser _) | .error (.output _) => trivial
    · exact fun args => staysClean_of_ends (L.arguments I (fun _ _ => trivial) hs) fun _ _ h => h
    · intro definition args hargs
      exact staysClean_of_ends (L.callScript I (fun _ _ => trivial) hargs hs) fun _ _ h => h

/-- A host may make a slot that refers to another one. -/
theorem references_end_alias :
    (State.addSlot (State.initial default) ⟨.reference ⟨⟨0⟩, none, none⟩, false, none⟩).2.Ranked ∧
      (Eval.run 100 "function f(x) \x7b return x; \x7d f(f);" .script
        (State.initial default)).StaysClean ProperResult := by
  have hranked : (State.initial default).Ranked := State.ranked_install none none default
  have hclean : (State.initial default).Clean := references_end.2.2.1 none none default
  refine ⟨references_end.1 _ _ hranked (.addSlot _ ?_), ?_⟩
  · intro r h
    cases h
    decide +kernel
  · exact (references_end.2.2.2 _ hclean 100).2.2.1 "function f(x) \x7b return x; \x7d f(f);" .script

end Scripting
