import Scripting.Proofs.Frames

/-!
The backtrace of an exception ends with that of the place where the evaluation started.

An exception is thrown with the names of the frames at hand. Frames that were put on the stack since the
evaluation started are above those it started with, and are taken off without touching the exception.
-/

namespace Scripting

/-- The name of the frame of an included text. -/
def includeName (path : String) : String :=
  "<include " ++ path ++ ">"

theorem Eval.frameName_ne_empty (s : State) (v : Value) (callee : ObjectId)
    (container : Option ObjectId) : Eval.frameName s v callee container ≠ "" := by
  cases container with
  | none => simp [Eval.frameName]
  | some o => simp [Eval.frameName]

theorem includeName_ne_empty (path : String) : includeName path ≠ "" := by
  simp [includeName]

/-- An exception that is thrown has a backtrace that ends with these names. -/
def Outcome.ThrowsOnto {α : Type} (names : List String) : Outcome α → Prop
  | .thrown e _ => names <:+ e.backtrace
  | .ok _ _ | .outOfFuel | .needsFile _ => True

namespace State

variable {s s' : State}

theorem backtrace_congr (h : s'.frames = s.frames) : s'.backtrace = s.backtrace := by
  rw [backtrace, backtrace, h]

theorem suffix_congr (h : s'.frames = s.frames) {names : List String} :
    s'.backtrace <:+ names ↔ s.backtrace <:+ names := by
  rw [backtrace_congr h]

/-- Taking a frame off leaves the names below it. -/
theorem backtrace_popFrame (s : State) : s.popFrame.backtrace <:+ s.backtrace :=
  ((List.tail_suffix s.frames).map _).filter _

theorem backtrace_pushCall {name : String} (h : name ≠ "") (container : Option ObjectId) :
    (s.pushCall name container).backtrace = name :: s.backtrace := by
  simp [backtrace, pushCall, addObject, h]

theorem backtrace_pushGlobal {name : String} (h : name ≠ "") :
    (s.pushGlobal name).backtrace = name :: s.backtrace := by
  simp [backtrace, pushGlobal, h]

end State

namespace Eval

variable {α : Type} {s : State} {names : List String} {m : Eval α}

theorem throwsOnto_fail (fault : Fault) (s : State) :
    (fail fault s : Outcome α).ThrowsOnto s.backtrace :=
  List.suffix_rfl

theorem throwsOnto_inFrame {push : State → State} (h : (m (push s)).ThrowsOnto names) :
    (inFrame push m s).ThrowsOnto names := by
  unfold inFrame
  cases hrun : m (push s) with
  | thrown e s' =>
    rw [hrun] at h
    exact h
  | _ => trivial

theorem throwsOnto_holding (nodes : List Node)
    (h : ∀ held, (m { s with held := held }).ThrowsOnto names) :
    (holding nodes m s).ThrowsOnto names := by
  unfold holding
  split
  · exact h s.held
  · have hheld : (m (s.hold nodes)).ThrowsOnto names := h _
    dsimp only
    cases hrun : m (s.hold nodes) with
    | thrown e s' =>
      rw [hrun] at hheld
      exact hheld
    | _ => trivial

end Eval

namespace Discipline

/-- The frames stay as they are, and what is thrown has a backtrace that ends with their names. -/
def traced : Discipline :=
  { frames with raised := fun s e => s.backtrace <:+ e.backtrace }

theorem traced_pushes {s s₁ : State} (h : frames.Pushes s s₁) : traced.Pushes s s₁ :=
  ⟨h.inv, h.good, h.stored, h.back⟩

theorem traced_lawful : traced.Lawful :=
  { frames_lawful with
    raised_mono := fun hl he => (State.suffix_congr hl).2 he
    raise := fun _ _ => List.suffix_rfl
    raised_value := fun _ => trivial
    raised_pop := fun he => (State.backtrace_popFrame _).trans he
    pushCall := fun name hs h => traced_pushes (frames_lawful.pushCall name hs h)
    pushGlobal := fun name hs => traced_pushes (frames_lawful.pushGlobal name hs)
    pushBlock := fun hs => traced_pushes (frames_lawful.pushBlock hs) }

theorem traced_hosts : traced.twin.Hosts :=
  traced_lawful.hosts (fun _ _ _ => ⟨trivial, rfl⟩) (fun _ _ => trivial) fun _ _ => trivial

theorem throwsOnto_of_keeps {α : Type} {s : State} {Q : State → α → Prop} {m : Eval α}
    (h : traced.Keeps s Q m) : (m s).ThrowsOnto s.backtrace := by
  unfold Keeps at h
  cases hrun : m s with
  | thrown e s' =>
    rw [hrun] at h
    obtain ⟨-, hframes, hraised⟩ := h
    exact (State.suffix_congr hframes).1 hraised
  | ok a s' => trivial
  | outOfFuel => trivial
  | needsFile path => trivial

/-- What a call throws has the name of the call in its backtrace. -/
theorem throwsOnto_call {s : State} {v : Value} {callee : ObjectId} (hv : s.deref v = .object callee)
    (n : Nat) (args : List Value) : (Eval.call n v args s).ThrowsOnto
      (Eval.frameName s v callee (Eval.containerOf v) :: s.backtrace) := by
  cases n with
  | zero => trivial
  | succ n =>
    change (Eval.callStep (Eval.interp n) v args s).ThrowsOnto _
    unfold Eval.callStep Eval.deref
    rw [Eval.look_bind, hv]
    apply Eval.throwsOnto_holding
    intro held
    apply Eval.throwsOnto_inFrame
    have hobject := throwsOnto_of_keeps (s := ({ s with held := held } : State).pushCall
        (Eval.frameName s v callee (Eval.containerOf v)) (Eval.containerOf v))
      (traced_lawful.callObject (traced_lawful.interprets traced_hosts n) traced_hosts callee
        ((Eval.containerOf v).getD callee) args trivial trivial trivial fun _ _ => trivial)
    rw [State.backtrace_pushCall (Eval.frameName_ne_empty _ _ _ _)] at hobject
    exact hobject

/-- What an included text throws has its name in the backtrace. -/
theorem throwsOnto_includeSource (n : Nat) (path source : String) (s : State) :
    (Eval.includeSource (Eval.interp n) path source s).ThrowsOnto
      (includeName path :: s.backtrace) := by
  rw [← State.backtrace_pushGlobal (includeName_ne_empty path)]
  apply Eval.throwsOnto_inFrame
  have hrun := traced_lawful.runCode (s := s.pushGlobal (includeName path))
    (traced_lawful.interprets traced_hosts n) source .included trivial trivial
  unfold Keeps at hrun
  change (Eval.andThen (Eval.runCode (Eval.interp n) source .included) _
    (s.pushGlobal (includeName path))).ThrowsOnto _
  unfold Eval.andThen
  cases hcode : Eval.runCode (Eval.interp n) source .included (s.pushGlobal (includeName path)) with
  | ok r s' =>
    rw [hcode] at hrun
    obtain ⟨-, hframes, hr⟩ := hrun
    rw [← State.backtrace_congr hframes]
    match r with
    | .ok v => trivial
    | .error (.uncaught e) => exact hr
    | .error (.lexer d) => exact Eval.throwsOnto_fail _ s'
    | .error (.parser ds) => exact Eval.throwsOnto_fail _ s'
    | .error (.output reason) => exact Eval.throwsOnto_fail _ s'
  | thrown e s' =>
    rw [hcode] at hrun
    exact (State.suffix_congr hrun.2.1).1 hrun.2.2
  | outOfFuel => trivial
  | needsFile path => trivial

theorem suffix_of_uncaught {n : Nat} {source : String} {mode : RunMode} {s s' : State} {e : Exception}
    (h : Eval.run n source mode s = .ok (.error (.uncaught e)) s') : s.backtrace <:+ e.backtrace := by
  obtain ⟨-, hframes, hraised⟩ :=
    (traced_lawful.runCode (traced_lawful.interprets traced_hosts n) source mode trivial trivial).of_ok h
  exact (State.suffix_congr hframes).1 hraised

end Discipline

end Scripting
