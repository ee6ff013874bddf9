import Scripting.Proofs.Discipline.Code
import Scripting.Proofs.Enclosure.Completion

/-!
No jump is ever left over where all jumps are enclosed.

A jump that is open in the body of a function or in a source text ends in a fault, unless it is the
`return` of a function. The interpreter is given a watch, which has such a jump in its hands before the
fault is thrown and may do something else instead. Where all jumps are enclosed, the interpreter does
under any watch what it does without one.
-/

namespace Scripting

/-- The body of a function may end so. -/
def Completion.endsFunction : Completion → Bool
  | .normal _ | .returned _ => true
  | .broken | .continued => false

/-- A statement of a source text may end so. -/
def Completion.endsText : Completion → Bool
  | .normal _ => true
  | .returned _ | .broken | .continued => false

/-- What is done with a jump that is left over: something is thrown, or the code goes on as if it had
ended in another way. -/
structure Watch where
  act : Completion → Except Exception Completion

namespace Watch

variable (watch : Watch)

/-- Statements that may end only in the ways that `takes` admits, under the watch. -/
def attach (takes : Completion → Bool) (i : Interp) : Interp :=
  { i with
    execute := fun statement => do
      let c ← i.execute statement
      if takes c then return c
      else
        match watch.act c with
        | .ok c => return c
        | .error e => Eval.rethrow e }

/-- How the statements may end that a call runs: those of the body of a function, or those of an
included text. -/
def takenBy (s : State) (v : Value) : Completion → Bool :=
  match s.deref v with
  | .object callee =>
    match (s.object callee).callable? with
    | some (.script _) => Completion.endsFunction
    | _ => Completion.endsText
  | _ => Completion.endsText

def callStep (i : Interp) (v : Value) (args : List Value) : Eval Value := fun s =>
  Eval.callStep (watch.attach (takenBy s v) i) v args s

def rules : Rules :=
  ⟨Eval.evaluateStep, Eval.executeStep, watch.callStep⟩

/-- The evaluation within a bound, under a watch. -/
def interp (n : Nat) : Interp :=
  watch.rules.interp n

/-- Runs a source text within a bound, under a watch. -/
def run (n : Nat) (source : String) (mode : RunMode) : Eval (Except RunError Value) :=
  Eval.runCode (watch.attach Completion.endsText (watch.interp n)) source mode

/-- The watch that leaves every jump to the faults of the interpreter. -/
def faults : Watch :=
  ⟨.ok⟩

/-- The watch that goes on as if the jump were not there. -/
def ignoring : Watch :=
  ⟨fun _ => .ok (.normal .undefined)⟩

end Watch

/-! Computations that do the same. -/

namespace Eval

variable {α : Type}

/-- What comes after a computation does nothing if it gives back all that the computation gives. -/
theorem Gives.bind_eq_self {m : Eval α} {P : α → Prop} {f : α → Eval α} (hm : Gives m P)
    (hf : ∀ a, P a → f a = pure a) : m >>= f = m := by
  funext s
  change andThen m f s = m s
  unfold andThen
  cases hrun : m s with
  | ok a s' =>
    dsimp only
    rw [hf a (hm.of_ok hrun)]
    rfl
  | thrown e s' => rfl
  | outOfFuel => rfl
  | needsFile path => rfl

end Eval

namespace State

variable (s : State)

theorem files_settleAmong (classes : List ClassId) : (s.settleAmong classes).files = s.files := by
  obtain ⟨_, _, h⟩ := s.settleAmong_sameButLives classes
  rw [h]

theorem files_settleObject (o : ObjectId) : (s.settleObject o).files = s.files := by
  unfold settleObject
  split
  · unfold settleLineage
    split
    · rfl
    · exact s.files_settleAmong _
  · rfl

/-- Looking for the class that `this` lacks reads no file. -/
theorem files_missingClass {s s' : State} {required : Option ClassId} {this : ObjectId}
    {missing : Option ClassId} (h : Eval.missingClass required this s = .ok missing s') :
    s'.files = s.files := by
  cases required with
  | none =>
    cases h
    rfl
  | some c =>
    obtain ⟨_, s₁, ⟨⟩, hrest⟩ := Eval.exists_of_bind_ok h
    obtain ⟨_, s₂, hobject, ⟨⟩⟩ := Eval.exists_of_bind_ok hrest
    rw [← s.files_settleAmong [c]]
    unfold Eval.settleObject Eval.holding Eval.change at hobject
    split at hobject
    · cases hobject
      exact files_settleObject _ this
    · cases hobject
      exact files_settleObject _ this

/-- Every function written in the language encloses its jumps. -/
def Enclosed : Prop :=
  s.Scripts (·.enclosed = true)

end State

/-- Every text among the files encloses its jumps. -/
def Files.Enclosed (files : Files) : Prop :=
  ∀ path source, files.read path = some (.ok source) → EnclosedText source

/-! Where all jumps are enclosed, the watch has nothing to do. -/

namespace Watch

variable {watch : Watch} {takes : Completion → Bool} {i : Interp}

theorem attach_faults (takes : Completion → Bool) (i : Interp) : faults.attach takes i = i := by
  have hexecute : (faults.attach takes i).execute = i.execute := by
    funext statement
    apply Eval.Gives.bind_eq_self (P := fun _ => True) ⟨fun _ => trivial⟩
    intro c _
    simp only [faults]
    split <;> rfl
  change Interp.mk i.fuel i.evaluate (faults.attach takes i).execute i.call = i
  rw [hexecute]

/-- An interpreter under a watch differs from one without only in the place of the faults. -/
theorem interp_faults (n : Nat) : faults.interp n = Eval.interp n := by
  have hcall : faults.callStep = Eval.callStep := by
    funext i v args s
    rw [callStep, attach_faults]
  have hrules : faults.rules = .language := by rw [rules, hcall, Rules.language]
  rw [interp, hrules, Rules.interp_language]

theorem run_faults (n : Nat) (source : String) (mode : RunMode) :
    faults.run n source mode = Eval.run n source mode := by
  rw [run, attach_faults, interp_faults, Eval.run]

/-- Where jumps are ignored, no statement ends in a way that is a fault. -/
theorem gives_execute_ignoring (htakes : takes (.normal .undefined) = true) (i : Interp)
    (statement : Stmt) :
    Eval.Gives ((ignoring.attach takes i).execute statement) fun c => takes c = true := by
  refine Eval.gives_bind fun c => ?_
  split
  · rename_i hc
    exact Eval.gives_pure hc
  · exact Eval.gives_pure htakes

/-- The watch changes nothing about how statements end. -/
theorem keepsJumps (watch : Watch) (n : Nat) : Eval.KeepsJumps (watch.interp n) := by
  induction n with
  | zero => exact fun _ => ⟨nofun⟩
  | succ n ih => exact Eval.endsWithin_executeStep ih

theorem execute_attach {statement : Stmt}
    (h : Eval.Gives (i.execute statement) fun c => takes c = true) :
    (watch.attach takes i).execute statement = i.execute statement := by
  apply h.bind_eq_self
  intro c hc
  rw [if_pos hc]

theorem runItems_attach {items : List Item}
    (h : ∀ item ∈ items, Eval.Gives (i.execute item.statement) fun c => takes c = true)
    (last : Value) :
    Eval.runItems (watch.attach takes i) last items = Eval.runItems i last items := by
  induction items generalizing last with
  | nil => rfl
  | cons item rest ih =>
    rw [List.forall_mem_cons] at h
    rw [Eval.runItems, Eval.runItems, execute_attach h.1]
    congr 1
    funext c
    cases c with
    | normal v => exact ih h.2 v
    | _ => rfl

theorem runStatements_attach {statements : List Stmt}
    (h : ∀ statement ∈ statements, Eval.Gives (i.execute statement) fun c => takes c = true)
    (last : Value) :
    Eval.runStatements (watch.attach takes i) last statements =
      Eval.runStatements i last statements := by
  induction statements generalizing last with
  | nil => rfl
  | cons statement rest ih =>
    rw [List.forall_mem_cons] at h
    rw [Eval.runStatements, Eval.runStatements, execute_attach h.1]
    congr 1
    funext c
    cases c with
    | normal v => exact ih h.2 v
    | _ => rfl

theorem takenBy_script {s : State} {v : Value} {callee : ObjectId} {definition : FunctionDef}
    (hv : s.deref v = .object callee)
    (h : (s.object callee).callable? = some (.script definition)) :
    takenBy s v = Completion.endsFunction := by
  simp only [takenBy, hv, h]

theorem takenBy_native {s : State} {v : Value} {callee : ObjectId} {function : NativeFunction}
    (hv : s.deref v = .object callee)
    (h : (s.object callee).callable? = some (.native function)) :
    takenBy s v = Completion.endsText := by
  simp only [takenBy, hv, h]

section
variable (hi : Eval.KeepsJumps i)
include hi

theorem callScript_attach {definition : FunctionDef} (h : definition.enclosed = true)
    (args : List Value) :
    Eval.callScript (watch.attach Completion.endsFunction i) definition args =
      Eval.callScript i definition args := by
  unfold Eval.callScript
  rw [runItems_attach]
  intro item hitem
  apply Eval.Gives.mono (hi item.statement)
  intro c hc
  cases c with
  | normal v => rfl
  | returned v => rfl
  | broken => cases FunctionDef.hasOpen_body h hitem (hc _ rfl)
  | continued => cases FunctionDef.hasOpen_body h hitem (hc _ rfl)

theorem runProgram_attach {program : Program} (h : program.enclosed = true) :
    Eval.runProgram (watch.attach Completion.endsText i) program = Eval.runProgram i program := by
  apply runStatements_attach
  intro statement hstatement
  obtain ⟨-, hopen⟩ := Program.enclosed_iff.1 h statement hstatement
  apply Eval.Gives.mono (hi statement)
  intro c hc
  have hnone : ∀ jump, c.jump? ≠ some jump := by
    intro jump hjump
    have hleft : statement.hasOpen jump = true := hc jump hjump
    rw [hopen jump] at hleft
    cases hleft
  cases c with
  | normal v => rfl
  | _ => exact absurd rfl (hnone _)

theorem runCode_attach {source : String} (h : EnclosedText source) (mode : RunMode) :
    Eval.runCode (watch.attach Completion.endsText i) source mode = Eval.runCode i source mode := by
  unfold Eval.runCode
  cases hparse : parseProgram source with
  | error d => rfl
  | ok program =>
    dsimp only
    cases herror : program.isError with
    | true => rfl
    | false =>
      unfold Eval.runChecked
      rw [runProgram_attach hi (h program hparse herror)]

theorem includeSource_attach (path : String) {source : String} (h : EnclosedText source) :
    Eval.includeSource (watch.attach Completion.endsText i) path source =
      Eval.includeSource i path source := by
  unfold Eval.includeSource
  rw [runCode_attach hi h]

variable {s : State}

theorem includeFile_attach (hfiles : s.files.Enclosed) (args : List Value) :
    Eval.includeFile (watch.attach Completion.endsText i) args s = Eval.includeFile i args s := by
  apply Eval.includeFile_congr
  intro source hread
  exact congrFun (includeSource_attach hi _ (hfiles _ _ hread)) s

theorem callNative_attach (hfiles : s.files.Enclosed) (function : NativeFunction) (this : ObjectId)
    (args : List Value) :
    Eval.callNative (watch.attach Completion.endsText i) function this args s =
      Eval.callNative i function this args s := by
  -- of all functions, only `include` runs statements
  apply Eval.callNative_congr
  · intro builtin s₁ _ hmissing
    cases builtin with
    | includeFile =>
      apply includeFile_attach hi
      rw [State.files_missingClass hmissing]
      exact hfiles
    | _ => rfl
  · intro host s₁ _ _
    cases host <;> rfl

theorem callObject_attach {callee : ObjectId} (hs : s.Enclosed) (hfiles : s.files.Enclosed)
    (hscript : ∀ definition, (s.object callee).callable? = some (.script definition) →
      takes = Completion.endsFunction)
    (hnative : ∀ function, (s.object callee).callable? = some (.native function) →
      takes = Completion.endsText) (this : ObjectId) (args : List Value) :
    Eval.callObject (watch.attach takes i) callee this args s =
      Eval.callObject i callee this args s := by
  apply Eval.callObject_congr
  · intro function hcallable
    obtain rfl := hnative function hcallable
    exact callNative_attach hi hfiles function this args
  · intro definition hcallable
    obtain rfl := hscript definition hcallable
    exact congrFun (callScript_attach hi (hs _ _ hcallable) args) s

/-- No jump is left over in a call. -/
theorem callStep_attach (hs : s.Enclosed) (hfiles : s.files.Enclosed) (v : Value)
    (args : List Value) :
    Eval.callStep (watch.attach (takenBy s v) i) v args s = Eval.callStep i v args s := by
  apply Eval.callStep_congr
  intro callee held hcallee
  have hcallable := State.callable?_pushCall { s with held := held }
    (Eval.frameName s v callee (Eval.containerOf v)) (Eval.containerOf v)
  apply callObject_attach hi
  · intro o definition h
    rw [hcallable] at h
    exact hs o definition h
  · exact hfiles
  · intro definition h
    rw [hcallable] at h
    exact takenBy_script hcallee h
  · intro function h
    rw [hcallable] at h
    exact takenBy_native hcallee h

end

end Watch

namespace Discipline

/-- Only code that encloses its jumps is run, made into functions and read from files. -/
def enclosed : Discipline :=
  ofCode (fun s => s.Enclosed ∧ s.files.Enclosed) (·.functionsEnclosed = true)
    (·.functionsEnclosed = true) (·.enclosed = true) EnclosedText

theorem enclosed_codeLaws : CodeLaws (fun s => s.Enclosed ∧ s.files.Enclosed)
    (·.functionsEnclosed = true) (·.functionsEnclosed = true) (·.enclosed = true)
    EnclosedText where
  of_payloads hs h hfiles := ⟨State.Scripts.of_payloads hs.1 h, hfiles ▸ hs.2⟩
  make hs _ hscripts := ⟨State.Scripts.addObject hs.1 hscripts, hs.2⟩
  scope _ hs := ⟨State.Scripts.addObject hs.1 nofun, hs.2⟩
  setHostData o data hs := ⟨State.Scripts.setHostData hs.1 o data, hs.2⟩
  expr_parts h := Expr.functionsEnclosed_parts h
  stmt_parts h := Stmt.functionsEnclosed_parts h
  expr_code h := Expr.enclosed_of_function h
  stmt_code h := Stmt.enclosed_of_function h
  script hs hcallable := (FunctionDef.enclosed_iff.1 (hs.1 _ _ hcallable)).2
  text_of_file hs hread := hs.2 _ _ hread
  program h hparse herror statement hstatement :=
    (Program.enclosed_iff.1 (h _ hparse herror) statement hstatement).1

/-- Within the discipline the watch has nothing to do. -/
theorem follows_watch (watch : Watch) (n : Nat) : enclosed.Follows watch.rules (watch.interp n) where
  evaluate _ _ := rfl
  execute _ _ := rfl
  call {v args _} hs _ _ := Watch.callStep_attach (watch.keepsJumps n) hs.1 hs.2 v args

end Discipline

/-- A run does the same under any watch if all jumps are enclosed, in every file that is known. -/
theorem Watch.run_eq (watch : Watch) {s : State} (hs : s.Enclosed) (hfiles : s.files.Enclosed)
    {source : String} (hsource : EnclosedText source) (n : Nat) (mode : RunMode) :
    watch.run n source mode s = Eval.run n source mode s := by
  have L : Discipline.enclosed.Lawful := Discipline.lawful_ofCode Discipline.enclosed_codeLaws
  have H : Discipline.enclosed.twin.Hosts := Discipline.hosts_ofCode Discipline.enclosed_codeLaws
  calc watch.run n source mode s
    _ = watch.rules.run n source mode s :=
      congrFun (Watch.runCode_attach (watch.keepsJumps n) hsource mode) s
    _ = Eval.run n source mode s :=
      L.run_eq H (Discipline.follows_watch watch) n source mode ⟨hs, hfiles⟩ hsource

end Scripting
