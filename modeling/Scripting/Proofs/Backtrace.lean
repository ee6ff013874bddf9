import Scripting.Proofs.Backtrace.Activity

/-!
Backtraces are complete.

Whatever is evaluated, an exception that leaves it has a backtrace that ends with the names of the frames
at its start. In the states of an interpreter without functions of the host these are the names of the
active calls and included texts and of the global frame, one each. Main statement:
`backtraces_complete`.
-/

namespace Scripting

open Eval Discipline in
/-- Expressions, statements, blocks, calls, programs, included files and source texts throw with a
backtrace that ends with that of their start; calls and included texts put their own name in front of
it. The frames of calls and included texts have a name and those of blocks have none. So in every state
of an interpreter the backtrace is made of one name for each active call and included text, and of that
of the global frame. -/
theorem backtraces_complete :
    ((∀ n e s, (evaluate n e s).ThrowsOnto s.backtrace) ∧
      (∀ n statement s, (execute n statement s).ThrowsOnto s.backtrace) ∧
      (∀ n items s, (runBlock (interp n) items s).ThrowsOnto s.backtrace) ∧
      (∀ n v args s, (call n v args s).ThrowsOnto s.backtrace) ∧
      (∀ n program s, (runProgram (interp n) program s).ThrowsOnto s.backtrace) ∧
      (∀ n args s, (includeFile (interp n) args s).ThrowsOnto s.backtrace) ∧
      (∀ n v args callee s, s.deref v = .object callee →
        (call n v args s).ThrowsOnto (frameName s v callee (containerOf v) :: s.backtrace)) ∧
      (∀ n path source s, (includeSource (interp n) path source s).ThrowsOnto
        (includeName path :: s.backtrace)) ∧
      ∀ n source mode s s' e, run n source mode s = .ok (.error (.uncaught e)) s' →
        s.backtrace <:+ e.backtrace) ∧
    ((∀ s v callee container, frameName s v callee container ≠ "" ∧
        (s.pushCall (frameName s v callee container) container).frames.map (·.name) =
          frameName s v callee container :: s.frames.map (·.name)) ∧
      (∀ (s : State) path, includeName path ≠ "" ∧
        (s.pushGlobal (includeName path)).frames.map (·.name) =
          includeName path :: s.frames.map (·.name)) ∧
      ∀ s : State, s.pushBlock.frames.map (·.name) = "" :: s.frames.map (·.name)) ∧
    (∀ s : State, s.Reached → ∃ names, s.Active names) ∧
    ∀ (s : State) names, s.Active names →
      (∀ name ∈ names, name ≠ "") ∧ s.backtrace = names ++ ["<global scope>"] := by
  have L := traced_lawful
  have I := L.interprets traced_hosts
  refine ⟨⟨?_, ?_, ?_, ?_, ?_, ?_, ?_, throwsOnto_includeSource, ?_⟩, ⟨?_, ?_, ?_⟩,
    fun s => State.Reached.active, fun s names => State.Active.names⟩
  · intro n e s
    exact throwsOnto_of_keeps ((I n).evaluate trivial trivial)
  · intro n statement s
    exact throwsOnto_of_keeps ((I n).execute trivial trivial)
  · intro n items s
    exact throwsOnto_of_keeps (L.runBlock (I n) (fun _ _ => trivial) trivial)
  · intro n v args s
    exact throwsOnto_of_keeps ((I n).call trivial trivial fun _ _ => trivial)
  · intro n program s
    exact throwsOnto_of_keeps (L.runProgram (I n) (fun _ _ => trivial) trivial)
  · intro n args s
    exact throwsOnto_of_keeps (L.includeFile (I n) trivial fun _ _ => trivial)
  · intro n v args callee s hv
    exact throwsOnto_call hv n args
  · intro n source mode s s' e h
    exact suffix_of_uncaught h
  · intro s v callee container
    exact ⟨frameName_ne_empty s v callee container, rfl⟩
  · intro s path
    exact ⟨includeName_ne_empty path, rfl⟩
  · intro s
    rfl

/-- The names that a source text which is a single call has on the stack when that call begins to run
code. -/
def callNamesOf (n : Nat) (source : String) (s : State) : List String :=
  match parseProgram source with
  | .error _ => []
  | .ok program =>
    match program.isError, program.statements with
    | false, .expression _ (.call _ callee args) :: _ =>
      match Eval.evaluate n callee s with
      | .ok f s₁ =>
        match Eval.arguments (Eval.interp n) args s₁ with
        | .ok values s₂ => s₂.callNames f values
        | _ => []
      | _ => []
    | _, _ => []

open Discipline in
theorem exists_active_of_callNamesOf {n : Nat} {source : String} {s : State} {names : List String}
    (hs : s.BetweenRuns) (h : callNamesOf n source s = names) (hnames : names ≠ []) :
    ∃ s' : State, s'.Active names := by
  have L := sealed_lawful
  have hsealed : s.Sealed := L.betweenRuns sealed_hosts State.sealed_install (fun _ => trivial) hs
  unfold callNamesOf at h
  split at h
  · exact absurd h.symm hnames
  · rename_i program hparse
    split at h
    · rename_i _ _ callee args _ herror hstatements
      split at h
      · rename_i f s₁ hcallee
        split at h
        · rename_i values s₂ hargs
          have hsealed₁ : s₁.Sealed := ((L.interprets sealed_hosts n).evaluate trivial hsealed).inv
            (.inl ⟨f, hcallee⟩)
          have hexecute := RequestedIn.program (n := n + 2) source .script hs
            (Eval.asks_first hsealed.immortal hparse herror hstatements .script)
          have hevaluate := hexecute.inside (Request.asks_expression _ _)
          have hcall := hevaluate.inside (Request.asks_call hcallee
            ((Eval.holding_of_immortal hsealed₁.immortal f.nodes _).trans hargs))
          have hactive := State.Active.running hcall
          rw [h] at hactive
          exact ⟨_, List.append_nil names ▸ hactive⟩
        · exact absurd h.symm hnames
      · exact absurd h.symm hnames
    · exact absurd h.symm hnames

/-- The backtrace of the exception with which a source text ended. -/
def uncaughtBacktrace : Outcome (Except RunError Value) → Option (List String)
  | .ok (.error (.uncaught e)) _ => some e.backtrace
  | _ => none

theorem exists_of_uncaughtBacktrace {outcome : Outcome (Except RunError Value)} {names : List String}
    (h : uncaughtBacktrace outcome = some names) :
    ∃ e s, outcome = .ok (.error (.uncaught e)) s ∧ e.backtrace = names := by
  unfold uncaughtBacktrace at h
  split at h
  · rename_i e s
    exact ⟨e, s, rfl, Option.some.inj h⟩
  · cases h

/-- A file whose text throws. -/
def throwingFiles : Files :=
  (default : Files).learn "a" (.ok "to_int('x');")

/-- A call within an included text within a call: the three names are in the backtrace. -/
theorem backtraces_complete_include :
    (∃ s : State, s.Active ["<include a>", "Global::include()"] ∧
      s.backtrace = ["<include a>", "Global::include()", "<global scope>"]) ∧
    ∃ e s, Eval.run 60 "include('a');" .script (State.initial throwingFiles) =
        .ok (.error (.uncaught e)) s ∧
      (State.initial throwingFiles).backtrace <:+ e.backtrace ∧
      e.backtrace =
        ["Global::to_int()", "<include a>", "Global::include()", "<global scope>"] := by
  constructor
  · have hnames : callNamesOf 60 "include('a');" (State.initial throwingFiles) =
        ["<include a>", "Global::include()"] := by
      decide +kernel
    obtain ⟨s, hs⟩ := exists_active_of_callNamesOf (.new none none throwingFiles) hnames nofun
    exact ⟨s, hs, (backtraces_complete.2.2.2 s _ hs).2⟩
  · have hcheck : uncaughtBacktrace (Eval.run 60 "include('a');" .script
        (State.initial throwingFiles)) =
          some ["Global::to_int()", "<include a>", "Global::include()", "<global scope>"] := by
      decide +kernel
    obtain ⟨e, s, hrun, he⟩ := exists_of_uncaughtBacktrace hcheck
    exact ⟨e, s, hrun, backtraces_complete.1.2.2.2.2.2.2.2.2 _ _ _ _ s e hrun, he⟩

end Scripting
