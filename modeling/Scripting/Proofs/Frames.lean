import Scripting.Proofs.Discipline.Reach
import Scripting.Proofs.Discipline.States
import Scripting.Proofs.Initial

/-!
The stack of frames is balanced: whatever a computation does, it leaves the frames that it found.
-/

namespace Scripting

/-- Every end of a computation leaves these frames on the stack. A computation that has not ended says
nothing. -/
def Outcome.LeavesFrames {α : Type} (frames : List Frame) : Outcome α → Prop
  | .ok _ s | .thrown _ s => s.frames = frames
  | .outOfFuel | .needsFile _ => True

namespace Eval

/-- Runs source texts one after the other in the same interpreter, each within a bound of its own and
in its own mode, whatever comes of them. -/
def runEach : List (Nat × String × RunMode) → Eval Unit
  | [] => return ()
  | (n, source, mode) :: rest => do
    let _ ← attempt (run n source mode)
    runEach rest

end Eval

namespace Discipline

/-- The frames stay as they are. -/
def frames : Discipline where
  inv _ := True
  leads s s' := s'.frames = s.frames
  good _ _ := True
  stored _ _ := True
  raised _ _ := True
  expr _ := True
  stmt _ := True
  host _ := True

theorem frames_pushes {s s₁ : State} (h : s₁.frames.tail = s.frames) : frames.Pushes s s₁ := by
  apply pushes_ofStates trivial
  intro s' _ hl
  refine ⟨trivial, ?_⟩
  change s'.frames.tail = s.frames
  rw [show s'.frames = s₁.frames from hl, h]

theorem frames_stateLaws : StateLaws (fun _ => True) fun s s' => s'.frames = s.frames where
  refl _ := rfl
  trans h h' := h'.trans h
  addObject _ _ := ⟨trivial, rfl⟩
  addSlot _ _ := ⟨trivial, rfl⟩
  allocate _ _ _ _ _ := ⟨trivial, rfl⟩
  writeSlot _ _ _ := ⟨trivial, rfl⟩
  setHostData _ _ _ := ⟨trivial, rfl⟩
  output _ _ := ⟨trivial, rfl⟩
  errorOutput _ _ := ⟨trivial, rfl⟩
  hold _ _ := ⟨trivial, rfl⟩
  settle := by
    intro s classes _
    obtain ⟨_, _, h⟩ := s.settleAmong_sameButLives classes
    exact ⟨trivial, by rw [h]; rfl⟩
  pushCall _ _ _ := frames_pushes rfl
  pushGlobal _ _ := frames_pushes rfl
  pushBlock _ := frames_pushes rfl

theorem frames_lawful : frames.Lawful :=
  lawful_ofStates frames_stateLaws

theorem frames_hosts : frames.twin.Hosts :=
  hosts_ofStates frames_stateLaws

theorem frames_open : frames.Open :=
  ⟨fun _ => trivial, fun _ => trivial, fun _ => trivial, fun _ _ => trivial, fun _ _ => trivial⟩

theorem leavesFrames_of_ends {α : Type} {s : State} {Q : State → α → Prop} {outcome : Outcome α}
    (h : frames.Ends s Q outcome) : outcome.LeavesFrames s.frames := by
  cases outcome with
  | ok a s' => exact h.2.1
  | thrown e s' => exact h.2.1
  | outOfFuel => trivial
  | needsFile path => trivial

theorem frames_runEach (runs : List (Nat × String × RunMode)) (s : State) :
    frames.twin.Keeps ⟨s, s⟩ (fun _ _ _ => True) (Eval.runEach runs) (Eval.runEach runs) := by
  have L := frames_lawful.twin
  induction runs generalizing s with
  | nil => exact L.pure ⟨s, rfl, trivial⟩ trivial
  | cons first rest ih =>
    obtain ⟨n, source, mode⟩ := first
    have hrun := L.runCode (L.interprets frames_hosts n) source mode ⟨s, rfl, trivial⟩ trivial
    apply L.bind hrun.attempt
    rintro _ _ _ ⟨s', rfl, -⟩ _ _
    exact ih s'

end Discipline

namespace State

theorem installs_frames (frames : List Frame) : Installs fun s => s.frames = frames where
  object hs _ := hs
  allocate _ _ hs _ _ := hs
  method _ _ hs _ := hs

theorem frames_bare (globalMarker thisMarker : Option String) (files : Files) :
    (bare globalMarker thisMarker files).frames = [⟨globalFrameName, ⟨1⟩, ⟨0⟩⟩] := by
  cases globalMarker <;> cases thisMarker <;> rfl

/-- A new interpreter has the global frame and no other. -/
theorem frames_install (globalMarker thisMarker : Option String) (files : Files) :
    (bare globalMarker thisMarker files).install.frames = [⟨globalFrameName, ⟨1⟩, ⟨0⟩⟩] :=
  (installs_frames _).new (frames_bare globalMarker thisMarker files)

end State

open Eval Discipline in
/-- Expressions, statements, blocks, programs, calls and source texts leave the stack as they found it,
however they end; so a sequence of source texts leaves the global frame and no other. -/
theorem frames_balanced :
    (∀ n e s, (evaluate n e s).LeavesFrames s.frames) ∧
    (∀ n statement s, (execute n statement s).LeavesFrames s.frames) ∧
    (∀ n items s, (runBlock (interp n) items s).LeavesFrames s.frames) ∧
    (∀ n program s, (runProgram (interp n) program s).LeavesFrames s.frames) ∧
    (∀ n v args s, (call n v args s).LeavesFrames s.frames) ∧
    (∀ n source mode s, (run n source mode s).LeavesFrames s.frames) ∧
    ∀ runs globalMarker thisMarker files,
      (runEach runs (State.bare globalMarker thisMarker files).install).LeavesFrames
        [⟨"<global scope>", ⟨1⟩, ⟨0⟩⟩] := by
  have L := frames_lawful
  have I := L.interprets frames_hosts
  refine ⟨?_, ?_, ?_, ?_, ?_, ?_, ?_⟩
  · intro n e s
    exact leavesFrames_of_ends ((I n).evaluate trivial trivial)
  · intro n statement s
    exact leavesFrames_of_ends ((I n).execute trivial trivial)
  · intro n items s
    exact leavesFrames_of_ends (L.runBlock (I n) (fun _ _ => trivial) trivial)
  · intro n program s
    exact leavesFrames_of_ends (L.runProgram (I n) (fun _ _ => trivial) trivial)
  · intro n v args s
    exact leavesFrames_of_ends ((I n).call trivial trivial fun _ _ => trivial)
  · intro n source mode s
    exact leavesFrames_of_ends (L.runCode (I n) source mode trivial trivial)
  · intro runs globalMarker thisMarker files
    have hkeeps := frames_runEach runs (State.bare globalMarker thisMarker files).install
    have h := leavesFrames_of_ends (Keeps.of_twin hkeeps fun _ _ h => h)
    rw [State.frames_install] at h
    exact h

end Scripting
