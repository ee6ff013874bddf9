import Scripting.Proofs.Backtrace.Traced
import Scripting.Proofs.Isolation.Sealed

/-!
Which calls and included texts are active.

A request is made inside another one, or by a source text. Going from the outermost request inwards,
each call on the way is active, and each text that a call includes. Main statement: the frames that have
a name are those of the active calls and included texts and the global one, in this order
(`State.Active.names`).

Between the frames of a call or an included text and the next request there are only frames of blocks,
which have no name. This is a discipline for all that happens before another call is entered
(`Discipline.above`).
-/

namespace Scripting

variable {s : State} {args : List Value}

namespace State

/-- The object is the function that includes a file. -/
def Includes (s : State) (o : ObjectId) : Prop :=
  ∃ f, (s.object o).callable? = some (.native f) ∧ f.callback = .builtin .includeFile

instance (s : State) (o : ObjectId) : Decidable (s.Includes o) :=
  match h : (s.object o).callable? with
  | some (.native f) =>
    decidable_of_iff (f.callback = .builtin .includeFile)
      ⟨fun hf => ⟨f, h, hf⟩, fun ⟨_, hg, hf⟩ => by rw [h] at hg; cases hg; exact hf⟩
  | some (.script _) => .isFalse fun ⟨_, hg, _⟩ => by rw [h] at hg; cases hg
  | none => .isFalse fun ⟨_, hg, _⟩ => by rw [h] at hg; cases hg

/-- The state in which a call of an object begins, with its frame on the stack. -/
def entering (s : State) (v : Value) (callee : ObjectId) : State :=
  s.pushCall (Eval.frameName s v callee (Eval.containerOf v)) (Eval.containerOf v)

/-- The path of the file that a call includes. -/
def includedPath (s : State) (v : Value) (callee : ObjectId) (args : List Value) : String :=
  (s.entering v callee).text (Eval.argument args 0)

/-- The state in which a call begins to run code: that of a function, or an included text. -/
def running (s : State) (v : Value) (args : List Value) : State :=
  match s.deref v with
  | .object callee =>
    if s.Includes callee then
      (s.entering v callee).pushGlobal (includeName (s.includedPath v callee args))
    else s.entering v callee
  | _ => s

/-- The names of a call and of the text that it includes, the innermost first. -/
def callNames (s : State) (v : Value) (args : List Value) : List String :=
  match s.deref v with
  | .object callee =>
    let name := Eval.frameName s v callee (Eval.containerOf v)
    if s.Includes callee then [includeName (s.includedPath v callee args), name] else [name]
  | _ => []

end State

/-- The names of what a request makes active. -/
def Request.enters (s : State) : Request → List String
  | .call v args => s.callNames v args
  | .evaluate _ | .execute _ => []

/-- What an interpreter is asked for within a bound, the state in which it is, and the names of the calls
and included texts in which it is, the innermost first. -/
inductive RequestedIn : Nat → Request → State → List String → Prop where
  | program {n : Nat} {q : Request} {s s' : State} (source : String) (mode : RunMode)
      (h : s.BetweenRuns)
      (hasks : Eval.Asks (Eval.runCode · source mode) (Eval.interp n) s q s') :
      RequestedIn n q s' []
  | inside {n : Nat} {q q' : Request} {s s' : State} {names : List String}
      (h : RequestedIn (n + 1) q s names) (hasks : q.Asks (Eval.interp n) s q' s') :
      RequestedIn n q' s' (q.enters s ++ names)

theorem RequestedIn.requested {n : Nat} {q : Request} {names : List String}
    (h : RequestedIn n q s names) : Requested n q s := by
  induction h with
  | program source mode h hasks => exact .program source mode h hasks
  | inside _ hasks ih => exact .inside ih hasks

theorem Requested.requestedIn {n : Nat} {q : Request} (h : Requested n q s) :
    ∃ names, RequestedIn n q s names := by
  induction h with
  | program source mode h hasks => exact ⟨[], .program source mode h hasks⟩
  | inside _ hasks ih =>
    obtain ⟨names, hnames⟩ := ih
    exact ⟨_, hnames.inside hasks⟩

/-- The names of the calls and included texts that are active in a state of an interpreter, the innermost
first. -/
inductive State.Active : State → List String → Prop where
  | between {s : State} (h : s.BetweenRuns) : Active s []
  | asked {n : Nat} {q : Request} {s : State} {names : List String} (h : RequestedIn n q s names) :
      Active s names
  | answered {n : Nat} {q : Request} {s s' : State} {names : List String}
      (h : RequestedIn n q s names) (hend : (q.answer (Eval.interp n) s).EndsIn s') : Active s' names
  | entering {n : Nat} {v : Value} {args : List Value} {callee : ObjectId} {s : State}
      {names : List String} (h : RequestedIn n (.call v args) s names)
      (hv : s.deref v = .object callee) :
      Active (s.entering v callee) (Eval.frameName s v callee (Eval.containerOf v) :: names)
  | running {n : Nat} {v : Value} {args : List Value} {s : State} {names : List String}
      (h : RequestedIn n (.call v args) s names) :
      Active (s.running v args) (s.callNames v args ++ names)

theorem State.Reached.active (h : s.Reached) : ∃ names, s.Active names := by
  cases h with
  | between h => exact ⟨[], .between h⟩
  | asked h =>
    obtain ⟨names, hnames⟩ := h.requestedIn
    exact ⟨names, .asked hnames⟩
  | answered h hend =>
    obtain ⟨names, hnames⟩ := h.requestedIn
    exact ⟨names, .answered hnames hend⟩

/-! The frames of a call. -/

namespace State

theorem backtrace_entering (v : Value) (callee : ObjectId) :
    (s.entering v callee).backtrace =
      Eval.frameName s v callee (Eval.containerOf v) :: s.backtrace :=
  backtrace_pushCall (Eval.frameName_ne_empty _ _ _ _) _

theorem running_of_includes {v : Value} {callee : ObjectId} (hv : s.deref v = .object callee)
    (h : s.Includes callee) :
    s.running v args =
      (s.entering v callee).pushGlobal (includeName (s.includedPath v callee args)) := by
  rw [running, hv]
  exact if_pos h

theorem running_of_not_includes {v : Value} {callee : ObjectId} (hv : s.deref v = .object callee)
    (h : ¬s.Includes callee) : s.running v args = s.entering v callee := by
  rw [running, hv]
  exact if_neg h

/-- A call puts its names on the stack before it runs any code. -/
theorem backtrace_running (v : Value) (args : List Value) :
    (s.running v args).backtrace = s.callNames v args ++ s.backtrace := by
  unfold running callNames
  split
  · split
    · rw [backtrace_pushGlobal (includeName_ne_empty _), backtrace_entering]
      rfl
    · exact backtrace_entering v _
  · rfl

theorem ne_empty_of_mem_callNames {v : Value} {name : String} (h : name ∈ s.callNames v args) :
    name ≠ "" := by
  unfold callNames at h
  split at h
  · split at h
    · simp only [List.mem_cons, List.not_mem_nil, or_false] at h
      rcases h with rfl | rfl
      · exact includeName_ne_empty _
      · exact Eval.frameName_ne_empty _ _ _ _
    · rw [List.mem_singleton] at h
      rw [h]
      exact Eval.frameName_ne_empty _ _ _ _
  · cases h

/-- On top of these frames there are only frames of blocks. -/
def Above (base : List Frame) (s : State) : Prop :=
  ∃ blocks : List Frame, (∀ block ∈ blocks, block.name = "") ∧ s.frames = blocks ++ base

theorem above_self (s : State) : Above s.frames s :=
  ⟨[], List.forall_mem_nil _, rfl⟩

theorem Above.congr {base : List Frame} {s s' : State} (hs : Above base s)
    (h : s'.frames = s.frames) : Above base s' := by
  obtain ⟨blocks, hblocks, hframes⟩ := hs
  exact ⟨blocks, hblocks, h.trans hframes⟩

theorem Above.pushBlock {base : List Frame} (hs : Above base s) : Above base s.pushBlock := by
  obtain ⟨blocks, hblocks, hframes⟩ := hs
  refine ⟨⟨"", s.thisObject, ⟨s.objects.size⟩⟩ :: blocks, ?_, congrArg (List.cons _) hframes⟩
  exact List.forall_mem_cons.2 ⟨rfl, hblocks⟩

/-- Blocks leave no trace. -/
theorem Above.backtrace_eq {s s' : State} (h : Above s.frames s') : s'.backtrace = s.backtrace := by
  obtain ⟨blocks, hblocks, hframes⟩ := h
  have hnone : (blocks.map (·.name)).filter (!·.isEmpty) = [] := by
    simpa using hblocks
  rw [backtrace, hframes, List.map_append, List.filter_append, hnone]
  rfl

end State

namespace Discipline

open State

/-- Only frames of blocks are put on the stack. -/
def above (base : List Frame) : Discipline :=
  ofStates (Above base) fun s s' => s'.frames = s.frames

variable {base : List Frame} {n : Nat}

theorem above_step {s' : State} (hs : Above base s) (h : s'.frames = s.frames) :
    (above base).Step s s' :=
  ⟨hs.congr h, h⟩

theorem above_inner (base : List Frame) : (above base).Inner :=
  inner_ofStates {
    refl := fun _ => rfl
    trans := fun h h' => h'.trans h
    addObject := fun _ hs => above_step hs rfl
    addSlot := fun _ hs => above_step hs rfl
    allocate := fun _ _ _ _ hs => above_step hs rfl
    writeSlot := fun _ _ hs => above_step hs rfl
    setHostData := fun _ _ hs => above_step hs rfl
    output := fun _ hs => above_step hs rfl
    errorOutput := fun _ hs => above_step hs rfl
    hold := fun _ hs => above_step hs rfl
    settle := fun classes hs => above_step hs (frames_stateLaws.settle classes trivial).2
    pushBlock := fun hs => pushes_ofStates hs.pushBlock fun _ _ hl =>
      above_step hs (congrArg List.tail hl) }

/-- What leaves the frames as they are keeps them above others. -/
theorem above_keeps {α : Type} {Q : State → α → Prop} {m : Eval α} (hs : Above base s)
    (h : (m s).LeavesFrames s.frames) (hQ : ∀ s' a, Q s' a) : (above base).Keeps s Q m := by
  unfold Keeps
  cases hrun : m s with
  | ok a s' =>
    rw [hrun] at h
    exact ⟨hs.congr h, h, hQ s' a⟩
  | thrown e s' =>
    rw [hrun] at h
    exact ⟨hs.congr h, h, trivial⟩
  | outOfFuel => trivial
  | needsFile path => trivial

theorem above_interprets (base : List Frame) (n : Nat) : (above base).Interprets (Eval.interp n) := by
  have I := frames_lawful.interprets frames_hosts n
  constructor
  · intro e s _ hs
    exact above_keeps hs (leavesFrames_of_ends (I.evaluate trivial trivial)) fun _ _ => trivial
  · intro statement s _ hs
    apply above_keeps hs (leavesFrames_of_ends (I.execute trivial trivial))
    intro s' c
    cases c <;> trivial
  · intro v args s hs _ _
    exact above_keeps hs (leavesFrames_of_ends (I.call trivial trivial fun _ _ => trivial))
      fun _ _ => trivial

end Discipline

/-! Where a call asks for something. -/

namespace Discipline

open Eval

variable {n : Nat} {i : Interp}

/-- A function of the interpreter other than `include` asks for calls in the frame of its own call. -/
theorem callBuiltin_eq (A : (above s.frames).Agree (interp n) i) {function : Builtin}
    (h : function ≠ .includeFile) (this : ObjectId) (args : List Value) :
    callBuiltin (interp n) function this args s = callBuiltin i function this args s := by
  cases function with
  | includeFile => exact absurd rfl h
  | systemThrows =>
    change systemThrows (interp n) args s = systemThrows i args s
    unfold systemThrows
    apply bind_congr_at
    intro _ s' hexpect
    have hs' : s' = s := by
      unfold expectAtLeast at hexpect
      split at hexpect
      · cases hexpect
      · cases hexpect
        rfl
    subst hs'
    apply bind_congr_left
    apply attempt_congr
    exact A.call (State.above_self _) trivial fun _ _ => trivial
  | _ => rfl

/-- An included text asks for things in a frame of its own. -/
theorem includeFile_eq
    (A : (above (s.pushGlobal (includeName (s.text (argument args 0)))).frames).Agree (interp n) i) :
    includeFile (interp n) args s = includeFile i args s := by
  apply includeFile_congr
  intro source _
  apply inFrame_congr
  apply bind_congr_left
  exact (above_inner _).runCode_congr (above_interprets _ n) A source .included
    (State.above_self _) trivial

/-- A call asks for things above the frames that it has when it begins to run code. -/
theorem callStep_eq (hs : s.Sealed) {v : Value}
    (A : (above (s.running v args).frames).Agree (interp n) i) :
    callStep (interp n) v args s = callStep i v args s := by
  by_cases hobject : ∃ callee, s.deref v = .object callee
  · obtain ⟨callee, hv⟩ := hobject
    rw [callStep_of_immortal args hs.immortal hv, callStep_of_immortal args hs.immortal hv]
    apply inFrame_congr
    change callObject (interp n) callee _ args (s.entering v callee) =
      callObject i callee _ args (s.entering v callee)
    have hcallable : ((s.entering v callee).object callee).callable? = (s.object callee).callable? :=
      s.callable?_pushCall _ _ callee
    have hmortal : (s.entering v callee).mortal = [] := hs.immortal
    apply callObject_congr
    · intro f hf
      rw [hcallable] at hf
      apply callNative_congr
      · intro builtin s' hbuiltin hmissing
        obtain rfl := eq_of_missingClass hmortal hmissing
        by_cases hincludes : s.Includes callee
        · -- the text runs in a frame above that of the call, and only there something is asked for
          rw [State.running_of_includes hv hincludes] at A
          obtain ⟨g, hg, hinclude⟩ := hincludes
          obtain rfl : f = g := by simpa [hf] using hg
          obtain rfl : builtin = .includeFile := by simpa [hbuiltin] using hinclude
          exact includeFile_eq A
        · rw [State.running_of_not_includes hv hincludes] at A
          apply callBuiltin_eq A
          rintro rfl
          exact hincludes ⟨f, hf, hbuiltin⟩
      · intro host s' hhost _
        exact absurd hhost (hs.natives callee f host hf)
    · intro definition hf
      rw [hcallable] at hf
      have hincludes : ¬s.Includes callee := by
        rintro ⟨g, hg, -⟩
        rw [hf] at hg
        cases hg
      rw [State.running_of_not_includes hv hincludes] at A
      exact (above_inner _).callScript_congr (above_interprets _ n) A (fun _ _ => trivial)
        (fun _ _ => trivial) (State.above_self _)
  · rw [callStep_of_not_object args (not_exists.1 hobject),
      callStep_of_not_object args (not_exists.1 hobject)]

end Discipline

open Discipline in
/-- What is asked for by a request has the names that the request enters on top of its own. -/
theorem Request.Asks.backtrace_eq {n : Nat} {q q' : Request} {s s' : State} (hs : s.Sealed)
    (h : q.Asks (Eval.interp n) s q' s') : s'.backtrace = q.enters s ++ s.backtrace := by
  cases q with
  | evaluate e =>
    have h : Eval.Asks (Eval.evaluateStep · e) (Eval.interp n) s q' s' := h
    exact (admits_of_asks (fun i' A => (above_inner s.frames).evaluateStep_congr
      (above_interprets _ n) A trivial s.above_self) h).1.backtrace_eq
  | execute statement =>
    have h : Eval.Asks (Eval.executeStep · statement) (Eval.interp n) s q' s' := h
    exact (admits_of_asks (fun i' A => (above_inner s.frames).executeStep_congr
      (above_interprets _ n) A trivial s.above_self) h).1.backtrace_eq
  | call v args =>
    have h : Eval.Asks (Eval.callStep · v args) (Eval.interp n) s q' s' := h
    have habove := (admits_of_asks (fun i' A => callStep_eq hs A) h).1
    exact habove.backtrace_eq.trans (State.backtrace_running v args)

namespace State

variable {names : List String}

open Discipline in
theorem BetweenRuns.frames_eq (h : s.BetweenRuns) : s.frames = [⟨globalFrameName, ⟨1⟩, ⟨0⟩⟩] := by
  induction h with
  | new globalMarker thisMarker files => exact frames_install globalMarker thisMarker files
  | @run s s' n source mode _ hrun ih =>
    have hkeeps := frames_lawful.runCode (frames_lawful.interprets frames_hosts n) source mode
      (s := s) trivial trivial
    exact (hkeeps.leads hrun).trans ih

/-- These names are on the stack above the global frame. -/
def Names (s : State) (names : List String) : Prop :=
  (∀ name ∈ names, name ≠ "") ∧ s.backtrace = names ++ [globalFrameName]

theorem BetweenRuns.names_nil (h : s.BetweenRuns) : s.Names [] := by
  refine ⟨List.forall_mem_nil _, ?_⟩
  rw [backtrace, h.frames_eq]
  decide

theorem Names.append {s' : State} {inner : List String} (h : s.Names names)
    (hinner : ∀ name ∈ inner, name ≠ "") (hs' : s'.backtrace = inner ++ s.backtrace) :
    s'.Names (inner ++ names) := by
  refine ⟨List.forall_mem_append.2 ⟨hinner, h.1⟩, ?_⟩
  rw [hs', h.2, List.append_assoc]

end State

theorem Request.ne_empty_of_mem_enters {q : Request} : ∀ name ∈ q.enters s, name ≠ "" := by
  cases q with
  | call v args => exact fun _ => State.ne_empty_of_mem_callNames
  | _ => exact List.forall_mem_nil _

theorem Requested.isSealed {n : Nat} {q : Request} (h : Requested n q s) : s.Sealed :=
  (Discipline.sealed_lawful.requested Discipline.sealed_hosts State.sealed_install (fun _ => trivial) h).1

open Discipline in
/-- The names in which a request is made are on the stack: a source text starts with none, and a request
inside another one has those on top that the outer one enters. -/
theorem RequestedIn.names {n : Nat} {q : Request} {names : List String}
    (h : RequestedIn n q s names) : s.Names names := by
  induction h with
  | @program n q s s' source mode hs hasks =>
    have habove := (admits_of_asks (fun i' A => (above_inner s.frames).runCode_congr
      (above_interprets _ n) A source mode s.above_self trivial) hasks).1
    exact hs.names_nil.append (List.forall_mem_nil _) habove.backtrace_eq
  | inside houter hasks ih =>
    exact ih.append Request.ne_empty_of_mem_enters (hasks.backtrace_eq houter.requested.isSealed)

open Discipline in
/-- The named frames are those of the active calls and included texts, and the global one. -/
theorem State.Active.names {names : List String} (h : s.Active names) : s.Names names := by
  cases h with
  | between h => exact h.names_nil
  | asked h => exact h.names
  | @answered n q s₀ _ _ h hend =>
    have hkeeps := frames_lawful.answer (n := n) frames_hosts trivial (frames_open.admits s₀ q)
    exact h.names.append (List.forall_mem_nil _) (State.backtrace_congr (hkeeps.leads hend))
  | entering h hv =>
    exact h.names.append (List.forall_mem_singleton.2 (Eval.frameName_ne_empty _ _ _ _))
      (State.backtrace_entering _ _)
  | running h =>
    exact h.names.append (fun _ => State.ne_empty_of_mem_callNames) (State.backtrace_running _ _)

end Scripting
