import Scripting.Proofs.Discipline.Run

/-!
What is asked for while scripts run.

A rule asks for the evaluation of an expression, the execution of a statement or a call if what it does
depends on the answer. The states in which something is asked for are the states in the middle of a
run. Main statements: a lawful discipline that holds of a new interpreter holds in all of them, and of
all that is asked for (`Lawful.requested`); and one that admits all code and all values holds in every
state that running code leads to (`Lawful.runs`).
-/

namespace Scripting

/-- What a rule can ask the evaluation of what lies inside for. -/
inductive Request where
  | evaluate (e : Expr)
  | execute (statement : Stmt)
  | call (callee : Value) (args : List Value)

/-- Two evaluations that differ at most in the answer to one request in one state. -/
structure Interp.SameBut (q : Request) (s : State) (i i' : Interp) : Prop where
  fuel : i.fuel = i'.fuel
  evaluate : ∀ e s', ¬(q = .evaluate e ∧ s = s') → i.evaluate e s' = i'.evaluate e s'
  execute : ∀ statement s', ¬(q = .execute statement ∧ s = s') →
    i.execute statement s' = i'.execute statement s'
  call : ∀ v args s', ¬(q = .call v args ∧ s = s') → i.call v args s' = i'.call v args s'

/-- A computation asks for something in a state if what it does depends on the answer. -/
def Eval.Asks {α : Type} (m : Interp → Eval α) (i : Interp) (s : State) (q : Request) (s' : State) :
    Prop :=
  ∃ i', i.SameBut q s' i' ∧ m i s ≠ m i' s

/-- The evaluation of one request asks for another one. -/
def Request.Asks (i : Interp) (s : State) : Request → Request → State → Prop
  | .evaluate e => Eval.Asks (Eval.evaluateStep · e) i s
  | .execute statement => Eval.Asks (Eval.executeStep · statement) i s
  | .call v args => Eval.Asks (Eval.callStep · v args) i s

/-- The states of an interpreter before, between and after the source texts that it runs. -/
inductive State.BetweenRuns : State → Prop where
  | new (globalMarker thisMarker : Option String) (files : Files) :
      BetweenRuns (bare globalMarker thisMarker files).install
  | run {s s' : State} (n : Nat) (source : String) (mode : RunMode) (h : BetweenRuns s)
      (hrun : (Eval.run n source mode s).EndsIn s') : BetweenRuns s'

/-- What an interpreter is asked for within a bound, and the state in which it is. -/
inductive Requested : Nat → Request → State → Prop where
  | program {n : Nat} {q : Request} {s s' : State} (source : String) (mode : RunMode)
      (h : s.BetweenRuns)
      (hasks : Eval.Asks (Eval.runCode · source mode) (Eval.interp n) s q s') : Requested n q s'
  | inside {n : Nat} {q q' : Request} {s s' : State} (h : Requested (n + 1) q s)
      (hasks : q.Asks (Eval.interp n) s q' s') : Requested n q' s'

/-- The value that a statement ended with, if it has one. -/
def Completion.values : Completion → List Value
  | .normal v | .returned v => [v]
  | .broken | .continued => []

/-- The answer to a request: the values that it gives. -/
def Request.answer (i : Interp) : Request → Eval (List Value)
  | .evaluate e => i.evaluate e >>= fun v => pure [v]
  | .execute statement => i.execute statement >>= fun c => pure c.values
  | .call v args => i.call v args >>= fun v => pure [v]

/-- The states of an interpreter between the source texts that it runs, and in the middle of one, where
something is asked for or answered. -/
inductive State.Reached : State → Prop where
  | between {s : State} (h : s.BetweenRuns) : Reached s
  | asked {n : Nat} {q : Request} {s : State} (h : Requested n q s) : Reached s
  | answered {n : Nat} {q : Request} {s s' : State} (h : Requested n q s)
      (hend : (q.answer (Eval.interp n) s).EndsIn s') : Reached s'

/-- The states that running code leads to: those in which it ends, however it ends, and those in the
middle of it in which it asks for something. -/
inductive State.Runs (s : State) : State → Prop where
  | evaluate (n : Nat) (e : Expr) {s' : State} (h : (Eval.evaluate n e s).EndsIn s') : Runs s s'
  | execute (n : Nat) (statement : Stmt) {s' : State}
      (h : (Eval.execute n statement s).EndsIn s') : Runs s s'
  | block (n : Nat) (items : List Item) {s' : State}
      (h : (Eval.runBlock (Eval.interp n) items s).EndsIn s') : Runs s s'
  | call (n : Nat) (v : Value) (args : List Value) {s' : State}
      (h : (Eval.call n v args s).EndsIn s') : Runs s s'
  | program (n : Nat) (program : Program) {s' : State}
      (h : (Eval.runProgram (Eval.interp n) program s).EndsIn s') : Runs s s'
  | source (n : Nat) (source : String) (mode : RunMode) {s' : State}
      (h : (Eval.run n source mode s).EndsIn s') : Runs s s'
  | inRequest (n : Nat) {q q' : Request} {s' : State} (h : q.Asks (Eval.interp n) s q' s') :
      Runs s s'
  | inSource (n : Nat) (source : String) (mode : RunMode) {q : Request} {s' : State}
      (h : Eval.Asks (Eval.runCode · source mode) (Eval.interp n) s q s') : Runs s s'

/-! Where something is asked for. -/

/-- A computation that has not ended, because the bound is used up or because a file is not known. -/
def Outcome.stopped {α : Type} : Option String → Outcome α
  | none => .outOfFuel
  | some path => .needsFile path

open Classical in
/-- An evaluation that stops at one request in one state. -/
noncomputable def Interp.stopAt (i : Interp) (s : State) (path : Option String) : Request → Interp
  | .evaluate e => { i with
      evaluate := fun e' s' => if e' = e ∧ s' = s then .stopped path else i.evaluate e' s' }
  | .execute statement => { i with
      execute := fun statement' s' =>
        if statement' = statement ∧ s' = s then .stopped path else i.execute statement' s' }
  | .call v args => { i with
      call := fun v' args' s' =>
        if v' = v ∧ args' = args ∧ s' = s then .stopped path else i.call v' args' s' }

namespace Interp

variable {i : Interp} {s : State} {path : Option String}

theorem sameBut_stopAt (q : Request) : i.SameBut q s (i.stopAt s path q) := by
  cases q with
  | evaluate e =>
    refine ⟨rfl, ?_, fun _ _ _ => rfl, fun _ _ _ _ => rfl⟩
    intro e' s' hother
    refine (if_neg ?_).symm
    rintro ⟨rfl, rfl⟩
    exact hother ⟨rfl, rfl⟩
  | execute statement =>
    refine ⟨rfl, fun _ _ _ => rfl, ?_, fun _ _ _ _ => rfl⟩
    intro statement' s' hother
    refine (if_neg ?_).symm
    rintro ⟨rfl, rfl⟩
    exact hother ⟨rfl, rfl⟩
  | call v args =>
    refine ⟨rfl, fun _ _ _ => rfl, fun _ _ _ => rfl, ?_⟩
    intro v' args' s' hother
    refine (if_neg ?_).symm
    rintro ⟨rfl, rfl, rfl⟩
    exact hother ⟨rfl, rfl⟩

theorem evaluate_stopAt (e : Expr) : (i.stopAt s path (.evaluate e)).evaluate e s = .stopped path :=
  if_pos ⟨rfl, rfl⟩

theorem execute_stopAt (statement : Stmt) :
    (i.stopAt s path (.execute statement)).execute statement s = .stopped path :=
  if_pos ⟨rfl, rfl⟩

theorem call_stopAt (v : Value) (args : List Value) :
    (i.stopAt s path (.call v args)).call v args s = .stopped path :=
  if_pos ⟨rfl, rfl, rfl⟩

end Interp

namespace Eval

variable {α β : Type} {i : Interp} {s s' : State} {q : Request}

/-- What stops with a request, whichever way that stops, asks for it. -/
theorem asks_of_stopAt {m : Interp → Eval α}
    (h : ∀ path, m (i.stopAt s' path q) s = .stopped path) : Asks m i s q s' := by
  by_cases hm : m i s = .outOfFuel
  · refine ⟨i.stopAt s' (some "") q, i.sameBut_stopAt q, ?_⟩
    rw [hm, h]
    exact nofun
  · refine ⟨i.stopAt s' none q, i.sameBut_stopAt q, ?_⟩
    rw [h]
    exact hm

theorem bind_stopped {m : Eval α} {f : α → Eval β} {path : Option String}
    (h : m s = .stopped path) : (m >>= f) s = .stopped path := by
  change andThen m f s = _
  unfold andThen
  rw [h]
  cases path <;> rfl

theorem holding_stopped {m : Eval α} {path : Option String} (hs : s.mortal = [])
    (nodes : List Node) (h : m s = .stopped path) : holding nodes m s = .stopped path := by
  rw [holding_of_immortal hs, h]

/-- Arguments are evaluated, not called. -/
theorem arguments_congr {i i' : Interp} (h : i.evaluate = i'.evaluate) (args : List Expr) :
    arguments i args = arguments i' args := by
  induction args with
  | nil => rfl
  | cons e rest ih => simp only [arguments, h, ih]

/-- A source text asks for the execution of its first statement. -/
theorem asks_first {source : String} {program : Program} {statement : Stmt} {rest : List Stmt}
    (hs : s.mortal = []) (hparse : parseProgram source = .ok program)
    (herror : program.isError = false) (hprogram : program.statements = statement :: rest)
    (mode : RunMode) : Asks (runCode · source mode) i s (.execute statement) s := by
  apply asks_of_stopAt
  intro path
  have hrun : ∀ j : Interp, runCode j source mode = runChecked j program mode := by
    intro j
    rw [runCode, hparse]
    simp [herror]
  have hfirst : runProgram (i.stopAt s path (.execute statement)) program s = .stopped path := by
    rw [runProgram, hprogram, runStatements]
    exact bind_stopped (holding_stopped hs _ (Interp.execute_stopAt statement))
  rw [hrun, runChecked]
  apply bind_stopped
  rw [attempt, hfirst]
  cases path <;> rfl

end Eval

namespace Request

variable {i : Interp} {s : State}

/-- A statement that is an expression asks for its value. -/
theorem asks_expression (span : Span) (e : Expr) :
    (Request.execute (.expression span e)).Asks i s (.evaluate e) s := by
  apply Eval.asks_of_stopAt (m := (Eval.executeStep · (.expression span e)))
  intro path
  exact Eval.bind_stopped (Interp.evaluate_stopAt e)

/-- A call expression asks for the call once its callee and its arguments are evaluated. -/
theorem asks_call {span : Span} {callee : Expr} {args : List Expr} {s₁ s₂ : State} {f : Value}
    {values : List Value} (hcallee : i.evaluate callee s = .ok f s₁)
    (hargs : Eval.holding f.nodes (Eval.arguments i args) s₁ = .ok values s₂) :
    (Request.evaluate (.call span callee args)).Asks i s (.call f values) s₂ := by
  apply Eval.asks_of_stopAt (m := (Eval.evaluateStep · (.call span callee args)))
  intro path
  have hargs' : Eval.arguments (i.stopAt s₂ path (.call f values)) args = Eval.arguments i args := by
    apply Eval.arguments_congr
    rfl
  change Eval.andThen (i.evaluate callee) _ s = _
  unfold Eval.andThen
  rw [hcallee]
  change Eval.andThen (Eval.holding f.nodes (Eval.arguments _ args)) _ s₁ = _
  unfold Eval.andThen
  rw [hargs', hargs]
  exact Interp.call_stopAt f values

end Request

namespace Discipline

variable {D : Discipline} {s : State}

/-- A request that lies within a discipline. -/
def Admits (D : Discipline) (s : State) : Request → Prop
  | .evaluate e => D.expr e
  | .execute statement => D.stmt statement
  | .call v args => D.good s v ∧ ∀ a ∈ args, D.stored s a

/-- The answer to a request outside of a discipline makes no difference within it. -/
theorem agree_of_sameBut {q : Request} {i i' : Interp} (h : i.SameBut q s i')
    (hout : ¬(D.inv s ∧ D.Admits s q)) : D.Agree i i' where
  fuel := h.fuel
  evaluate := by
    intro e s' he hs'
    apply h.evaluate
    rintro ⟨rfl, rfl⟩
    exact hout ⟨hs', he⟩
  execute := by
    intro statement s' hstatement hs'
    apply h.execute
    rintro ⟨rfl, rfl⟩
    exact hout ⟨hs', hstatement⟩
  call := by
    intro v args s' hs' hv hargs
    apply h.call
    rintro ⟨rfl, rfl⟩
    exact hout ⟨hs', hv, hargs⟩

/-- What makes a difference lies within a discipline. -/
theorem admits_of_asks {α : Type} {m : Interp → Eval α} {i : Interp} {s s' : State} {q : Request}
    (hm : ∀ i', D.Agree i i' → m i s = m i' s) (h : Eval.Asks m i s q s') :
    D.inv s' ∧ D.Admits s' q := by
  obtain ⟨i', hsame, hne⟩ := h
  apply Classical.byContradiction
  intro hout
  exact hne (hm i' (agree_of_sameBut hsame hout))

/-- A discipline that admits all code and all values. -/
structure Open (D : Discipline) : Prop where
  expr : ∀ e, D.expr e
  stmt : ∀ statement, D.stmt statement
  text : ∀ source, D.text source
  good : ∀ s v, D.good s v
  stored : ∀ s v, D.stored s v

theorem Open.admits (O : D.Open) (s : State) (q : Request) : D.Admits s q := by
  cases q with
  | evaluate e => exact O.expr e
  | execute statement => exact O.stmt statement
  | call v args => exact ⟨O.good s v, fun a _ => O.stored s a⟩

theorem Keeps.map {α β : Type} {m : Eval α} {f : α → β} {Q : State → α → Prop}
    {Q' : State → β → Prop} (h : D.Keeps s Q m) (hf : ∀ s' a, Q s' a → Q' s' (f a)) :
    D.Keeps s Q' (m >>= fun a => pure (f a)) := by
  change D.Ends s Q' (Eval.andThen m _ s)
  unfold Keeps at h
  unfold Eval.andThen
  cases hrun : m s with
  | ok a s' =>
    rw [hrun] at h
    exact ⟨h.1, h.2.1, hf s' a h.2.2⟩
  | thrown e s' =>
    rw [hrun] at h
    exact h
  | outOfFuel => trivial
  | needsFile path => trivial

namespace Lawful

/-- A request within a discipline is answered within it. -/
theorem answer (L : D.Lawful) (H : D.twin.Hosts) {n : Nat} {q : Request} (hs : D.inv s)
    (hq : D.Admits s q) :
    D.Keeps s (fun s' values => ∀ v ∈ values, D.good s' v) (q.answer (Eval.interp n)) := by
  have I := L.interprets H n
  have hone : ∀ s' v, D.good s' v → ∀ w ∈ [v], D.good s' w :=
    fun _ _ hv => List.forall_mem_singleton.2 hv
  cases q with
  | evaluate e => exact (I.evaluate hq hs).map hone
  | execute statement =>
    apply (I.execute hq hs).map
    intro s' c hc
    cases c with
    | normal v => exact hone s' v hc
    | returned v => exact hone s' v (L.good_of_stored hc)
    | broken => exact List.forall_mem_nil _
    | continued => exact List.forall_mem_nil _
  | call v args => exact (I.call hs hq.1 hq.2).map hone

/-- What is asked for by a request within a discipline lies within it. -/
theorem admits_of_request (L : D.Lawful) (H : D.twin.Hosts) {n : Nat} {q q' : Request}
    {s s' : State} (hs : D.inv s) (hq : D.Admits s q) (hasks : q.Asks (Eval.interp n) s q' s') :
    D.inv s' ∧ D.Admits s' q' := by
  have I := L.interprets H n
  cases q with
  | evaluate e =>
    have hasks : Eval.Asks (Eval.evaluateStep · e) (Eval.interp n) s q' s' := hasks
    exact admits_of_asks (fun i' A => L.evaluateStep_congr I A hq hs) hasks
  | execute statement =>
    have hasks : Eval.Asks (Eval.executeStep · statement) (Eval.interp n) s q' s' := hasks
    exact admits_of_asks (fun i' A => L.executeStep_congr I A hq hs) hasks
  | call v args =>
    have hasks : Eval.Asks (Eval.callStep · v args) (Eval.interp n) s q' s' := hasks
    exact admits_of_asks (fun i' A => L.callStep_congr I A H hs hq.1 hq.2) hasks

theorem runs (L : D.Lawful) (H : D.twin.Hosts) (O : D.Open) {s s' : State} (hs : D.inv s)
    (h : s.Runs s') : D.inv s' := by
  have I := L.interprets H
  cases h with
  | evaluate n e h => exact ((I n).evaluate (O.expr e) hs).inv h
  | execute n statement h => exact ((I n).execute (O.stmt statement) hs).inv h
  | block n items h => exact (L.runBlock (I n) (fun item _ => O.stmt item.statement) hs).inv h
  | call n v args h => exact ((I n).call hs (O.good s v) fun a _ => O.stored s a).inv h
  | program n program h =>
    exact (L.runProgram (I n) (fun statement _ => O.stmt statement) hs).inv h
  | source n source mode h => exact (L.runCode (I n) source mode hs (O.text source)).inv h
  | inRequest n h => exact (L.admits_of_request H hs (O.admits s _) h).1
  | inSource n source mode h =>
    exact (admits_of_asks
      (fun i' A => L.runCode_congr (I n) A source mode hs (O.text source)) h).1

section
variable (L : D.Lawful) (H : D.twin.Hosts)
  (hnew : ∀ globalMarker thisMarker files, D.inv (State.bare globalMarker thisMarker files).install)
  (htext : ∀ source, D.text source)
include L H hnew htext

theorem betweenRuns (h : s.BetweenRuns) : D.inv s := by
  induction h with
  | new globalMarker thisMarker files => exact hnew globalMarker thisMarker files
  | run n source mode _ hrun ih =>
    exact (L.runCode (L.interprets H n) source mode ih (htext source)).inv hrun

/-- In the middle of a run a discipline holds as it does at its end. -/
theorem requested {n : Nat} {q : Request} (h : Requested n q s) : D.inv s ∧ D.Admits s q := by
  induction h with
  | @program n q s s' source mode hs hasks =>
    apply admits_of_asks ?_ hasks
    intro i' A
    exact L.runCode_congr (L.interprets H n) A source mode (L.betweenRuns H hnew htext hs)
      (htext source)
  | inside _ hasks ih => exact L.admits_of_request H ih.1 ih.2 hasks

theorem reached (h : s.Reached) : D.inv s := by
  cases h with
  | between h => exact L.betweenRuns H hnew htext h
  | asked h => exact (L.requested H hnew htext h).1
  | answered h hend =>
    obtain ⟨hs, hq⟩ := L.requested H hnew htext h
    exact (L.answer H hs hq).inv hend

end

end Lawful

end Discipline

end Scripting
