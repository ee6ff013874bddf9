import Scripting.Proofs.Enclosure.Knowledge

/-!
Jumps do not escape.

Main statement: a statement ends with a `break`, `continue` or `return` only if one is open in it, loops
and `switch` take what is theirs, and a run of a text whose jumps are all enclosed, as are those of the
functions there are and of the files that it includes, never throws one of the faults of a jump that is
left over (`jumps_never_escape`).
-/

namespace Scripting

namespace Files

/-- The same answers, but none for one path. -/
def without (files : Files) (path : String) : Files :=
  ⟨fun p => if p = path then none else files.read p⟩

open Classical in
/-- The answers of a table except for texts with a jump that is not enclosed. -/
noncomputable def enclosedPart (files : Files) : Files :=
  ⟨fun path =>
    match files.read path with
    | some (.ok source) => if EnclosedText source then some (.ok source) else none
    | answer => answer⟩

variable (files : Files)

theorem enclosed_enclosedPart : files.enclosedPart.Enclosed := by
  intro path source hread
  simp only [enclosedPart] at hread
  split at hread
  · split at hread
    · cases hread
      assumption
    · cases hread
  · rename_i hother
    exact absurd hread (hother source)

theorem enclosedPart_knownTo : files.enclosedPart.KnownTo files := by
  intro path
  simp only [enclosedPart]
  split
  · rename_i source hread
    split
    · exact .inl hread.symm
    · exact .inr rfl
  · exact .inl rfl

/-- What is left out is a text with a jump that is not enclosed. -/
theorem exists_of_enclosedPart {path : String} (h : files.enclosedPart.read path = none)
    (hread : files.read path ≠ none) :
    ∃ source, files.read path = some (.ok source) ∧ ¬EnclosedText source := by
  simp only [enclosedPart] at h
  split at h
  · rename_i source hsource
    split at h
    · cases h
    · rename_i hopen
      exact ⟨source, hsource, hopen⟩
  · exact absurd h hread

theorem KnownTo.without {known files : Files} (h : known.KnownTo files) {path : String}
    (hpath : known.read path = none) : known.KnownTo (files.without path) := by
  intro p
  by_cases hp : p = path
  · subst hp
    exact .inr hpath
  · have hread : (files.without path).read p = files.read p := if_neg hp
    rw [hread]
    exact h p

end Files

/-- A run includes the file at a path: as long as nothing is known of it, the run stops there. -/
def Eval.Includes (n : Nat) (source : String) (mode : RunMode) (s : State) (path : String) : Prop :=
  Eval.run n source mode { s with files := s.files.without path } = .needsFile path

namespace Watch

variable {n : Nat} {source : String} {mode : RunMode} {s : State}

/-- A run that knows only the enclosed ones among the files lacks none of them, if it includes no
others. -/
theorem run_enclosedPart (watch : Watch) (hs : s.Enclosed) (hsource : EnclosedText source)
    (hincluded : ∀ path text, Eval.Includes n source mode s path →
      s.files.read path = some (.ok text) → EnclosedText text) :
    watch.run n source mode s =
      (Eval.run n source mode (s.knowing s.files.enclosedPart)).knowing s.files := by
  have hknown := s.files.enclosedPart_knownTo
  have hfewer : (s.knowing s.files.enclosedPart).Enclosed := hs
  have hagree : ∀ w : Watch, w.run n source mode (s.knowing s.files.enclosedPart) =
      Eval.run n source mode (s.knowing s.files.enclosedPart) :=
    fun w => w.run_eq hfewer s.files.enclosed_enclosedPart hsource n mode
  rcases watch.run_knowing hknown n source mode s with ⟨path, hstop, hnone, hsome⟩ | hsame
  · -- a text that is left out would be one that the run includes
    obtain ⟨text, hread, hopen⟩ := s.files.exists_of_enclosedPart hnone hsome
    have hstop' := (hagree faults).trans ((hagree watch).symm.trans hstop)
    have hincludes : Eval.Includes n source mode s path := by
      rcases faults.run_knowing (hknown.without hnone) n source mode s with
        ⟨path', hstop'', -, hsome'⟩ | hsame
      · rw [hstop'] at hstop''
        cases hstop''
        exact absurd (if_pos rfl) hsome'
      · rw [hstop', run_faults] at hsame
        exact hsame
    exact absurd (hincluded path text hincludes hread) hopen
  · rw [← hagree watch]
    exact hsame

end Watch

/-- A statement ends with a jump only if one is open in it. A loop ends without a value or with a
`return`, and a `switch` does not end with a `break`. Under a watch the interpreter differs from the one
without only in the place of the faults of a jump that is left over, and under the one that ignores such
jumps no body and no text ends in a way that is a fault. If every jump of a text, of the functions there
are and of the files that the run includes is enclosed, a run does the same under any watch: the faults
never occur. -/
theorem jumps_never_escape :
    (∀ n statement s c s', Eval.execute n statement s = .ok c s' →
      ∀ jump, c.jump? = some jump → statement.hasOpen jump = true) ∧
    (∀ n span condition body s c s',
      Eval.execute n (.whileLoop span condition body) s = .ok c s' →
      c = .normal .undefined ∨ ∃ v, c = .returned v) ∧
    (∀ n span init condition update body s c s',
      Eval.execute n (.forLoop span init condition update body) s = .ok c s' →
      c = .normal .undefined ∨ ∃ v, c = .returned v) ∧
    (∀ n span subject items s c s',
      Eval.execute n (.switch span subject items) s = .ok c s' → c ≠ .broken) ∧
    (∀ n source mode, Watch.faults.run n source mode = Eval.run n source mode) ∧
    (∀ takes i statement s c s', takes (.normal .undefined) = true →
      (Watch.ignoring.attach takes i).execute statement s = .ok c s' → takes c = true) ∧
    ∀ (watch : Watch) n source mode s, EnclosedText source → s.Enclosed →
      (∀ path text, Eval.Includes n source mode s path → s.files.read path = some (.ok text) →
        EnclosedText text) →
      watch.run n source mode s = Eval.run n source mode s := by
  refine ⟨?_, ?_, ?_, ?_, Watch.run_faults, ?_, ?_⟩
  · intro n statement s c s' hend
    exact (Eval.keepsJumps n statement).of_ok hend
  · intro n span condition body s c s' hend
    exact ((Eval.gives_execute_whileLoop n span condition body).of_ok hend).normal_or_returned
  · intro n span init condition update body s c s' hend
    exact ((Eval.gives_execute_forLoop n span init condition update body).of_ok
      hend).normal_or_returned
  · rintro n span subject items s _ s' hend rfl
    have hopen := (Eval.keepsJumps n _).of_ok hend _ rfl
    simp [Stmt.hasOpen] at hopen
  · intro takes i statement s c s' htakes hend
    exact (Watch.gives_execute_ignoring htakes i statement).of_ok hend
  · intro watch n source mode s hsource hs hincluded
    calc watch.run n source mode s
      _ = (Eval.run n source mode (s.knowing s.files.enclosedPart)).knowing s.files :=
        watch.run_enclosedPart hs hsource hincluded
      _ = Watch.faults.run n source mode s :=
        (Watch.faults.run_enclosedPart hs hsource hincluded).symm
      _ = Eval.run n source mode s := by rw [Watch.run_faults]

/-! A script with loops, and two files: one whose jumps are enclosed, and one with a stray `break`. -/

def countingScript : String :=
  "let f = function(n) \x7b while (true) \x7b if (n > 3) \x7b break; \x7d n += 1; \x7d return n; \x7d; " ++
    "include(\"counted\"); f(1);"

def Files.countedAndStray : Files :=
  ((default : Files).learn "stray" (.ok "break;")).learn "counted"
    (.ok "for (let i = 0; i < 3; i += 1) \x7b continue; \x7d")

theorem enclosedText_of_check {source : String}
    (h : (parseProgram source).toOption.all (·.enclosed) = true) : EnclosedText source := by
  intro program hprogram _
  rw [hprogram] at h
  exact h

/-- The file at which a computation stopped. -/
def Outcome.file? {α : Type} : Outcome α → Option String
  | .needsFile path => some path
  | _ => none

/-- The run ended and its text gave a value. -/
def Outcome.givesValue : Outcome (Except RunError Value) → Bool
  | .ok (.ok _) _ => true
  | _ => false

/-- The script includes the one file and not the other, so a watch makes no difference. It does where
the other one is included. -/
theorem jumps_never_escape_counted :
    (EnclosedText countingScript ∧ (State.initial Files.countedAndStray).Enclosed ∧
      (∀ path text,
        Eval.Includes 60 countingScript .script (State.initial Files.countedAndStray) path →
        (State.initial Files.countedAndStray).files.read path = some (.ok text) →
        EnclosedText text) ∧
      Watch.ignoring.run 60 countingScript .script (State.initial Files.countedAndStray) =
        Eval.run 60 countingScript .script (State.initial Files.countedAndStray)) ∧
    Watch.ignoring.run 60 "include(\"stray\");" .script (State.initial Files.countedAndStray) ≠
      Eval.run 60 "include(\"stray\");" .script (State.initial Files.countedAndStray) := by
  have hscript : EnclosedText countingScript := enclosedText_of_check (by decide +kernel)
  have hs : (State.initial Files.countedAndStray).Enclosed := State.scripts_install none none _
  have hincluded : ∀ path text,
      Eval.Includes 60 countingScript .script (State.initial Files.countedAndStray) path →
      (State.initial Files.countedAndStray).files.read path = some (.ok text) →
      EnclosedText text := by
    intro path text hincludes hread
    have hread : Files.countedAndStray.read path = some (.ok text) := hread
    by_cases hcounted : path = "counted"
    · subst hcounted
      cases hread
      exact enclosedText_of_check (by decide +kernel)
    · by_cases hstray : path = "stray"
      · subst hstray
        exact absurd (congrArg Outcome.file? hincludes) (by decide +kernel)
      · simp [Files.countedAndStray, Files.learn, hcounted, hstray] at hread
  refine ⟨⟨hscript, hs, hincluded, ?_⟩, ?_⟩
  · exact jumps_never_escape.2.2.2.2.2.2 Watch.ignoring 60 countingScript .script _ hscript hs hincluded
  · intro hsame
    exact absurd (congrArg Outcome.givesValue hsame) (by decide +kernel)

end Scripting
