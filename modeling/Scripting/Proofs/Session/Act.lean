import Scripting.Proofs.Session.Command

/-!
What one command of a host does to the state.

Most commands keep the state sound and retain classes and functions, however they end. The others add a
class or define a virtual member. Main statements: `acts_act`, all that a command can do, and
`act_congr`, that it depends on the evaluation of code only as far as states are sound.
-/

namespace Scripting.Host

open State Discipline

/-- The commands that run code. -/
def Command.runsCode : Command → Bool
  | .call .. | .callObject .. | .run .. | .runTree .. | .execute .. | .evaluate .. => true
  | _ => false

/-- What a command can do to a state. -/
inductive Acts (r : Registers) (s : State) (command : Command) : Outcome Reply → Prop where
  /-- Classes and functions are retained. -/
  | retained {outcome : Outcome Reply} (hnew : command.makesClass = false)
      (hdefines : command.defines? r = none ∨ ∀ reply s', outcome ≠ .ok reply s')
      (h : outcome.Upholds s Told) : Acts r s command outcome
  /-- A class is added. -/
  | made (name : String) (base : Option String) (behavior : Behavior) (keep : Bool)
      (hcommand : command = .newClass name base behavior keep) :
      Acts r s command (.ok (.defined ⟨s.classes.size⟩)
        (s.addClass { name, behavior, base := base.map r.classId }).2)
  /-- A virtual member is defined. Unless the host gives the function, it requires the class. -/
  | defined {s₁ : State} {c : ClassId} {name : String} {f : ObjectId}
      (hcommand : command.defines? r = some (c, name)) (hsound : s₁.Sound) (hretains : s.Retains s₁)
      (hf : s₁.Has (.object f))
      (hguard : (∃ className v, command = .virtualMember className name v) ∨
        ∃ callback, (s₁.object f).callable? = some (.native ⟨name, some c, callback⟩)) :
      Acts r s command (.ok .done (s₁.bindMethod c name f))

section
variable {r : Registers} {s start : State} {i i' : Interp}

/-- An object is called while all that the call is made with is held. -/
theorem twin_callObject (I : (sound start).Interprets i) (A : (sound start).Agree i i')
    {callee this : ObjectId} {args : List Value} (hs : (sound start).inv s)
    (hcallee : s.HasValue (.object callee)) (hthis : s.HasValue (.object this))
    (hargs : ∀ a ∈ args, s.HasValue a) :
    (sound start).twin.Keeps ⟨s, s⟩ (sound start).twin.good
      (Eval.holding (.object callee :: .object this :: args.flatMap Value.nodes)
        (Eval.callObject i callee this args))
      (Eval.holding (.object callee :: .object this :: args.flatMap Value.nodes)
        (Eval.callObject i' callee this args)) := by
  have L := sound_lawful start
  have I' := I.twin A
  have hnodes : (sound start).twin.Handed ⟨s, s⟩
      ((Value.object callee).nodes ++ ((Value.object this).nodes ++ args.flatMap Value.nodes))
      ((Value.object callee).nodes ++ ((Value.object this).nodes ++ args.flatMap Value.nodes)) :=
    .append (.value ⟨rfl, hcallee⟩) (.append (.value ⟨rfl, hthis⟩) (L.twin.handed_stored hargs))
  apply L.twin.holding ⟨s, rfl, hs⟩ hnodes
  · intro τ hτ hl
    have hcalleeτ := L.twin.stored_mono hl hcallee
    apply L.twin.callObject I' (fun _ _ h => ⟨rfl, h⟩) ?_ hτ hcalleeτ (L.twin.stored_mono hl hthis)
      fun a ha => L.twin.stored_mono hl (hargs a ha)
    intro f h υ hf hcallback hυ
    exact sound_hosts start I' (L.twin.hostOf hτ hcalleeτ hf hcallback) hυ
  · exact fun _ _ _ _ hl hv => L.twin.good_mono hl hv

end

section
variable {r : Registers} {s : State} {command : Command} (hs : s.Sound) (hr : r.Sound s)
  (hplain : ∀ v ∈ command.operands, v.isPlain = true) (n : Nat)

/-- The tokens of a text are handled alike, and text that is none is answered alike. -/
theorem twin_withTokens {source : String} {f g : List Token → Eval Reply} (hs : s.Sound)
    (h : ∀ tokens, (sound s).twin.Keeps ⟨s, s⟩ (Lockstep.Alike fun τ => Told τ.left) (f tokens)
      (g tokens)) :
    (sound s).twin.Keeps ⟨s, s⟩ (Lockstep.Alike fun τ => Told τ.left) (withTokens source f)
      (withTokens source g) := by
  unfold withTokens
  cases tokenize source with
  | ok tokens => exact h tokens
  | error d => exact (sound_lawful s).twin.give hs.twin_self (told_of_nodes rfl)

include hs hr hplain

/-- A command that runs code, beside the same command with another evaluation that agrees within the
discipline. -/
theorem twin_runCommand {n : Nat} {i : Interp} (A : (sound s).Agree (Eval.interp n) i)
    (hcode : command.runsCode = true) :
    (sound s).twin.Keeps ⟨s, s⟩ (Lockstep.Alike fun τ => Told τ.left)
      (runCommand r (Eval.interp n) command) (runCommand r i command) := by
  have L := (sound_lawful s).twin
  have I : (sound s).Interprets (Eval.interp n) := (sound_lawful s).interprets (sound_hosts s) n
  have I' := I.twin A
  have hinv := hs.inv_self
  cases command with
  | call v args =>
    obtain ⟨hv, hargs⟩ := List.forall_mem_cons.1 hplain
    apply L.next (twin_operand hinv hr hv)
    rintro value _ ⟨s₁, rfl, hs₁⟩ hl₁ hvalue
    apply L.next (twin_operands hs₁ (hr.retain hl₁) hargs)
    rintro values _ ⟨s₂, rfl, hs₂⟩ hl₂ hvalues
    apply L.bind (I'.call ⟨s₂, rfl, hs₂⟩ ⟨rfl, HasValue.retain hvalue hl₂⟩ hvalues)
    rintro result _ τ hτ - ⟨rfl, hresult⟩
    exact L.give hτ hresult
  | callObject object receiver args =>
    obtain ⟨hobject, hrest⟩ := List.forall_mem_cons.1 hplain
    obtain ⟨hreceiver, hargs⟩ := List.forall_mem_cons.1 hrest
    apply L.next (twin_objectOperand hinv hr hobject)
    rintro o _ ⟨s₁, rfl, hs₁⟩ hl₁ ho
    apply L.next (twin_objectOperand hs₁ (hr.retain hl₁) hreceiver)
    rintro self _ ⟨s₂, rfl, hs₂⟩ hl₂ hself
    have hr₂ := hr.retain (hl₁.trans hl₂)
    apply L.next (twin_operands hs₂ hr₂ hargs)
    rintro values _ ⟨s₃, rfl, hs₃⟩ hl₃ hvalues
    apply L.bind (twin_callObject I A hs₃ (HasValue.retain ho (hl₂.trans hl₃))
      (HasValue.retain hself hl₃) hvalues)
    rintro result _ τ hτ - ⟨rfl, hresult⟩
    exact L.give hτ hresult
  | run source mode =>
    apply L.bind (L.runCode I' source mode hs.twin_self trivial)
    rintro result _ τ hτ - ⟨rfl, hresult⟩
    match result with
    | .ok v => exact L.give hτ hresult
    | .error (.uncaught e) => exact L.give hτ hresult
    | .error (.lexer _) | .error (.parser _) | .error (.output _) =>
      exact L.give hτ (told_of_nodes rfl)
  | runTree source =>
    apply twin_withTokens hs
    intro tokens
    have hprogram : List.Forall₂ (sound s).twin.stmt (Parser.program tokens).1.statements
        (Parser.program tokens).1.statements := List.forall₂_same.2 fun _ _ => ⟨rfl, trivial⟩
    apply L.bind (L.runProgram I' hprogram hs.twin_self)
    rintro v _ τ hτ - ⟨rfl, hv⟩
    exact L.give hτ hv
  | execute source =>
    apply twin_withTokens hs
    intro tokens
    apply L.bind (I'.execute ⟨rfl, trivial⟩ ⟨s, s⟩ hs.twin_self)
    rintro c c' τ ⟨s₁, rfl, hs₁⟩ - hc
    cases eq_of_ended hc
    refine L.give ⟨s₁, rfl, hs₁⟩ ?_
    cases c with
    | normal v => exact ended_of_twin hc
    | returned v => exact ended_of_twin hc
    | broken => exact told_of_nodes rfl
    | continued => exact told_of_nodes rfl
  | evaluate source =>
    apply twin_withTokens hs
    intro tokens
    apply L.bind (I'.evaluate ⟨rfl, trivial⟩ hs.twin_self)
    rintro v _ τ hτ - ⟨rfl, hv⟩
    exact L.give hτ hv
  | _ => cases hcode

theorem upholds_runCommand : Eval.Upholds s Told (runCommand r (Eval.interp n) command) := by
  cases command with
  | call | callObject | run | runTree | execute | evaluate =>
    exact .of_twin (twin_runCommand hs hr hplain (.refl _ _) rfl) fun _ _ h => h.2
  | throwText className message => exact hs.throwOf (hr.has_classId hs className) message
  | throwValue v =>
    apply (upholds_first hs hr hplain).bind
    intro value s₁ hs₁ _ hvalue
    exact ⟨hs₁, .refl s₁, hs₁.closed.hasValue_deref hvalue⟩
  | _ => exact .pure hs (told_of_nodes rfl)

/-- What a command does depends on the evaluation that it refers to only within the discipline. -/
theorem act_congr {i : Interp} (A : (sound s).Agree (Eval.interp n) i) :
    act r (Eval.interp n) command s = act r i command s := by
  cases command with
  | call | callObject | run | runTree | execute | evaluate =>
    exact eq_of_twin (twin_runCommand hs hr hplain A rfl) fun _ _ _ h => h.1
  | _ => rfl

end

section
variable {r : Registers} {s : State} (hs : s.Sound) (hr : r.Sound s)

/-- A virtual member is defined once what defines it is there. -/
theorem acts_bind {α : Type} {Q : State → α → Prop} {m : Eval α} {k : α → Eval Reply}
    {command : Command} (hnew : command.makesClass = false) (hm : Eval.Upholds s Q m)
    (hk : ∀ a s', s'.Sound → s.Retains s' → Q s' a → Acts r s command (k a s')) :
    Acts r s command ((m >>= k) s) := by
  change Acts r s command (Eval.andThen m k s)
  unfold Eval.Upholds at hm
  unfold Eval.andThen
  generalize m s = outcome at hm ⊢
  cases outcome with
  | ok a s' => exact hk a s' hm.1 hm.2.1 hm.2.2
  | thrown e s' => exact .retained hnew (.inr fun _ _ h => by cases h) hm
  | outOfFuel => exact .retained hnew (.inr fun _ _ h => by cases h) trivial
  | needsFile path => exact .retained hnew (.inr fun _ _ h => by cases h) trivial

include hs hr

theorem acts_act {command : Command} (hplain : command.isPlain = true) (n : Nat) :
    Acts r s command (act r (Eval.interp n) command s) := by
  obtain ⟨hall, hfunction⟩ := Bool.and_eq_true_iff.1 hplain
  have hoperands : ∀ v ∈ command.operands, v.isPlain = true := List.all_eq_true.1 hall
  have hfunction : ∀ f, command.function? = some f → f.isPlain = true := by
    intro f hf
    rw [hf] at hfunction
    exact hfunction
  cases command with
  | newClass name base behavior keep => exact .made name base behavior keep rfl
  | method className name function =>
    -- A function that requires the class is shared among its instances.
    apply acts_bind rfl (upholds_callback hs hr hoperands (hfunction _ rfl))
    intro f s₁ hs₁ hl₁ hf
    let callable : Callable := .native ⟨name, some (r.classId className), f⟩
    have hsound : (s₁.newFunction callable).2.Sound := hs₁.newFunction (hf _ _)
    refine .defined rfl hsound (hl₁.trans (s₁.retains_addObject _)) ?_ (.inr ⟨f, ?_⟩)
    · simp [Has]
    · exact s₁.callable?_newFunction callable
  | virtualMember className name v =>
    apply acts_bind rfl (upholds_firstObject hs hr hoperands)
    intro o s₁ hs₁ hl₁ ho
    exact .defined rfl hs₁ hl₁ ho (.inl ⟨className, v, rfl⟩)
  | dropClass | classInfo | classMember | derives | wrapper | create =>
    exact .retained rfl (.inl rfl) (upholds_classCommand hs hr hoperands rfl rfl)
  | memberFunction | native | object | exceptionObject | member | ownMember | peekMember | allocate
  | setMember | inspect | instanceOf =>
    exact .retained rfl (.inl rfl) (upholds_objectCommand hs hr hoperands hfunction)
  | value | defineGlobal | newSlot | reference | readSlot | assign | describe | toInt | toBool
  | toObject | toReference | toWritable | toPrimitive | arguments =>
    exact .retained rfl (.inl rfl) (upholds_valueCommand hs hr hoperands)
  | unary | binary | compare | objectAdd | objectCompare | objectSubscript =>
    exact .retained rfl (.inl rfl) (upholds_operatorCommand hs hr hoperands)
  | call | callObject | throwText | throwValue | run | runTree | execute | evaluate =>
    exact .retained rfl (.inl rfl) (upholds_runCommand hs hr hoperands n)
  | resolve | declare | stack | globals | push | pop | close | write =>
    exact .retained rfl (.inl rfl) (upholds_frameCommand hs hr hoperands)

end

end Scripting.Host
