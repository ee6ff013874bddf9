import Scripting.Proofs.Lockstep.Syntax

/-!
Source texts, calls and the functions that every interpreter has keep two runs in lockstep. Main
statement: the evaluations within any bound do (`Lawful.interprets`).
-/

namespace Scripting.Lockstep

variable {args : List Value} {this : ObjectId}

namespace Inner

variable {R : Lockstep} {σ : Duo} {i i' : Interp} (L : R.Inner)
include L

/-! Source texts. -/

theorem reported {error : RunError} (text : String) (hs : R.inv σ)
    (herror : ∀ τ, R.leads σ τ → R.ran τ (.error error)) :
    R.Keeps σ (Alike R.ran) (Eval.reported text error) (Eval.reported text error) := by
  apply L.next (L.offerError text hs)
  intro taken τ hτ hl _
  cases taken with
  | true => exact L.give hτ (herror τ hl)
  | false => exact L.give hτ trivial

theorem unreadable (what rendered : String) (hs : R.inv σ) :
    R.Keeps σ (Alike R.ran) (Eval.unreadable what rendered) (Eval.unreadable what rendered) := by
  have hthrow : ∀ message, R.Keeps σ (Alike R.stored) (Eval.throwOf .syntaxError message)
      (Eval.throwOf .syntaxError message) := fun message => L.throwOf message hs (.inr rfl)
  apply L.bind (hthrow _).attempt
  intro r r' τ hτ _ hr
  cases hr with
  | ok hv =>
    obtain ⟨rfl, hv⟩ := hv
    exact L.give hτ hv
  | error he => exact L.give hτ he

section
variable (I : R.Interprets i i')
include I

theorem runStatements {statements statements' : List Stmt} {last last' : Value}
    (hstatements : List.Forall₂ R.stmt statements statements') (hs : R.inv σ)
    (hlast : R.good σ last last') :
    R.Keeps σ R.good (Eval.runStatements i last statements)
      (Eval.runStatements i' last' statements') := by
  induction hstatements generalizing σ last last' with
  | nil => exact L.pure hs hlast
  | cons hstatement _ ih =>
    unfold Eval.runStatements
    apply L.bind (L.heldExecute (I.execute hstatement) hs hlast)
    intro c c' τ hτ _ hc
    cases hc with
    | normal hv => exact ih hτ hv
    | _ => exact L.fail _ hτ

theorem runProgram {program program' : Program}
    (hprogram : List.Forall₂ R.stmt program.statements program'.statements) (hs : R.inv σ) :
    R.Keeps σ R.good (Eval.runProgram i program) (Eval.runProgram i' program') :=
  L.runStatements I hprogram hs (L.good_undefined σ)

omit I in
/-- What is echoed or reported is settled while it is held. -/
theorem heldSurvey {nodes nodes' : List Node} {f : State → String} (hs : R.inv σ)
    (hnodes : R.Handed σ nodes nodes')
    (hf : ∀ τ, R.inv τ → R.leads σ τ → f τ.left = f τ.right) :
    R.Keeps σ (Alike fun _ _ => True) (Eval.holding nodes (Eval.survey f))
      (Eval.holding nodes' (Eval.survey f)) := by
  apply L.holding hs hnodes
  · intro τ hτ hl
    exact L.survey hτ fun υ hυ hl' => hf υ hυ (L.trans hl hl')
  · exact fun _ _ _ _ _ h => h

theorem runChecked {program program' : Program} (mode : RunMode)
    (hprogram : List.Forall₂ R.stmt program.statements program'.statements) (hs : R.inv σ) :
    R.Keeps σ (Alike R.ran) (Eval.runChecked i program mode)
      (Eval.runChecked i' program' mode) := by
  unfold Eval.runChecked
  apply L.bind (L.runProgram I hprogram hs).attempt
  intro r r' τ hτ _ hr
  cases hr with
  | @ok v v' hv =>
    apply L.derefs hτ hv
    intro d hd
    cases mode with
    | interactive =>
      apply L.next (L.heldSurvey hτ (.append (.value hv) (.value (L.good_of_stored hd)))
        fun υ hυ hl => L.echo hυ (L.stored_mono hl hd))
      intro text υ hυ hl _
      apply L.next (L.offer _ hυ)
      intro taken φ hφ hl' _
      cases taken with
      | true => exact L.give hφ (L.stored_mono hl' (L.stored_mono hl hd))
      | false => exact L.give hφ trivial
    | _ => exact L.give hτ hd
  | @error e he =>
    have hreport : R.Keeps τ (Alike R.ran) (do
        let text ← Eval.holding e.value.nodes (Eval.survey (·.report e))
        Eval.reported text (.uncaught e)) (do
        let text ← Eval.holding e.value.nodes (Eval.survey (·.report e))
        Eval.reported text (.uncaught e)) := by
      have hvalue := L.raised_value he
      apply L.next
        (L.heldSurvey hτ (.value (L.good_of_stored hvalue)) fun υ hυ hl =>
          L.report hυ (L.stored_mono hl hvalue))
      intro text υ hυ hl _
      exact L.reported text hυ fun φ hl' => L.raised_mono hl' (L.raised_mono hl he)
    cases mode with
    | included => exact L.give hτ he
    | _ => exact hreport

theorem runCode (source : String) (mode : RunMode) (hs : R.inv σ) (hsource : R.text source) :
    R.Keeps σ (Alike R.ran) (Eval.runCode i source mode) (Eval.runCode i' source mode) := by
  unfold Eval.runCode
  cases hparse : parseProgram source with
  | error d =>
    cases mode with
    | included => exact L.unreadable _ _ hs
    | _ => exact L.reported _ hs fun _ _ => trivial
  | ok program =>
    dsimp only
    cases herror : program.isError with
    | true =>
      cases mode with
      | included => exact L.unreadable _ _ hs
      | _ => exact L.reported _ hs fun _ _ => trivial
    | false =>
      exact L.runChecked I mode (List.forall₂_same.2 (L.program hsource hparse herror)) hs

end

/-! The functions that every interpreter has. -/

theorem expectAtLeast (args : List Value) (least : Nat) (name : String) (hs : R.inv σ) :
    R.Keeps σ (fun _ _ _ => True) (Eval.expectAtLeast args least name)
      (Eval.expectAtLeast args least name) := by
  unfold Eval.expectAtLeast
  by_cases h : args.length < least
  · rw [if_pos h]
    exact L.fail _ hs
  · rw [if_neg h]
    exact L.pure hs trivial

theorem expectAtMost (args : List Value) (most : Nat) (name : String) (hs : R.inv σ) :
    R.Keeps σ (fun _ _ _ => True) (Eval.expectAtMost args most name)
      (Eval.expectAtMost args most name) := by
  unfold Eval.expectAtMost
  by_cases h : args.length > most
  · rw [if_pos h]
    exact L.fail _ hs
  · rw [if_neg h]
    exact L.pure hs trivial

section
variable (hs : R.inv σ) (hargs : ∀ a ∈ args, R.stored σ a)
include hs hargs

theorem optionalLength :
    R.Keeps σ (Alike fun _ _ => True) (Eval.optionalLength args) (Eval.optionalLength args) := by
  unfold Eval.optionalLength
  cases h : args[1]? with
  | none => exact L.give hs trivial
  | some v =>
    apply L.next (L.storedToInt hs (hargs v (List.mem_of_getElem? h)))
    intro n τ hτ _ _
    exact L.give hτ trivial

theorem stringSubstring (hthis : R.stored σ (.object this)) :
    R.Keeps σ (Alike R.stored) (Eval.stringSubstring this args)
      (Eval.stringSubstring this args) := by
  unfold Eval.stringSubstring Eval.charsOf
  apply L.bind (L.expectAtLeast _ _ _ hs)
  intro _ _ τ hτ hl _
  apply L.bind (L.expectAtMost _ _ _ hτ)
  intro _ _ υ hυ hl' _
  have hargsυ : ∀ a ∈ args, R.stored υ a :=
    fun a h => L.stored_mono hl' (L.stored_mono hl (hargs a h))
  have hthisυ := L.stored_mono hl' (L.stored_mono hl hthis)
  apply L.next (L.storedToInt hυ (L.stored_getD 0 hargsυ))
  intro start φ hφ hlφ _
  apply L.next (L.optionalLength hφ fun a h => L.stored_mono hlφ (hargsυ a h))
  intro length χ hχ hlχ _
  have hthisχ := L.stored_mono hlχ (L.stored_mono hlφ hthisυ)
  apply Keeps.look (by rw [L.objectString hχ hthisχ])
  cases Eval.substringOf (χ.left.object this).text.toList start length with
  | ok part => exact L.newStringValue _ hχ
  | error fault => exact L.fail _ hχ

omit hargs in
theorem charactersOf (hargs : ∀ a ∈ args, R.stored σ a) :
    R.Keeps σ (Alike fun _ _ => True) (Eval.charactersOf args) (Eval.charactersOf args) := by
  induction args generalizing σ with
  | nil => exact L.give hs trivial
  | cons v rest ih =>
    unfold Eval.charactersOf
    apply L.next (L.storedToInt hs (hargs v (by simp)))
    intro codepoint τ hτ hl _
    cases Eval.character? codepoint with
    | some c =>
      apply L.next (ih hτ fun a h => L.stored_mono hl (hargs a (by simp [h])))
      intro chars υ hυ _ _
      exact L.give hυ trivial
    | none => exact L.fail _ hτ

theorem constructWrapped (hthis : R.stored σ (.object this)) :
    R.Keeps σ (Alike R.stored) (Eval.constructWrapped this args)
      (Eval.constructWrapped this args) := by
  unfold Eval.constructWrapped
  apply Keeps.look (L.wrapped? hs hthis)
  cases hc : (σ.left.object this).wrapped? with
  | some c =>
    apply L.next (L.construct hs hargs hc)
    intro o τ hτ _ ho
    exact L.give hτ ho
  | none => exact L.fail _ hs

theorem systemWrite :
    R.Keeps σ (Alike R.stored) (Eval.systemWrite args) (Eval.systemWrite args) := by
  apply Keeps.look (L.joinedText hs hargs)
  apply L.bind (L.writeText _ hs)
  intro _ _ τ hτ _ _
  exact L.give hτ (L.literal τ trivial)

theorem systemWriteln :
    R.Keeps σ (Alike R.stored) (Eval.systemWriteln args) (Eval.systemWriteln args) := by
  apply Keeps.look (L.joinedText hs hargs)
  apply L.bind (L.writeText _ hs)
  intro _ _ τ hτ _ _
  apply L.bind (L.writeText _ hτ)
  intro _ _ υ hυ _ _
  exact L.give hυ (L.literal υ trivial)

omit hargs in
theorem dumpAll (hargs : ∀ a ∈ args, R.stored σ a) :
    R.Keeps σ (fun _ _ _ => True) (Eval.dumpAll args) (Eval.dumpAll args) := by
  induction args generalizing σ with
  | nil => exact L.pure hs trivial
  | cons v rest ih =>
    have hv : R.stored σ v := hargs v (by simp)
    unfold Eval.dumpAll
    apply L.next (L.survey hs fun τ hτ hl => by rw [L.dump hτ (L.stored_mono hl hv)])
    intro text τ hτ hl _
    apply L.bind (L.writeText text hτ)
    intro _ _ υ hυ hl' _
    exact ih hυ fun a h => L.stored_mono hl' (L.stored_mono hl (hargs a (by simp [h])))

end

theorem exceptionPrint (hs : R.inv σ) (hthis : R.stored σ (.object this)) :
    R.Keeps σ (Alike R.stored) (Eval.exceptionPrint this) (Eval.exceptionPrint this) := by
  apply L.next (L.survey hs fun τ hτ hl => by rw [L.detailed hτ (L.stored_mono hl hthis)])
  intro text τ hτ _ _
  apply L.bind (L.writeError text hτ)
  intro _ _ υ hυ _ _
  exact L.give hυ (L.literal υ trivial)

theorem systemBacktrace (hs : R.inv σ) :
    R.Keeps σ (Alike R.stored) Eval.systemBacktrace Eval.systemBacktrace := by
  apply Keeps.look (by rw [L.backtrace hs])
  apply L.bind (L.writeError _ hs)
  intro _ _ τ hτ _ _
  exact L.give hτ (L.literal τ trivial)

section
variable (I : R.Interprets i i')
include I

theorem systemThrows (hs : R.inv σ) (hargs : ∀ a ∈ args, R.stored σ a) :
    R.Keeps σ (Alike R.stored) (Eval.systemThrows i args) (Eval.systemThrows i' args) := by
  unfold Eval.systemThrows
  apply L.bind (L.expectAtLeast _ _ _ hs)
  intro _ _ τ hτ hl _
  have hcallee := L.good_of_stored (L.stored_mono hl (L.stored_getD 0 hargs))
  apply L.bind (I.call hτ hcallee (by simp)).attempt
  intro r r' υ hυ _ hr
  cases hr with
  | ok _ => exact L.give hυ (L.literal υ trivial)
  | error _ => exact L.give hυ (L.literal υ trivial)

end

/-! What a call does once it is entered. -/

theorem sumOf (total : Int64) (hs : R.inv σ) (hargs : ∀ a ∈ args, R.stored σ a) :
    R.Keeps σ (Alike fun _ _ => True) (Eval.sumOf total args) (Eval.sumOf total args) := by
  induction args generalizing σ total with
  | nil => exact L.give hs trivial
  | cons v rest ih =>
    unfold Eval.sumOf
    apply L.next (L.storedToInt hs (hargs v (by simp)))
    intro n τ hτ hl _
    exact ih _ hτ fun a h => L.stored_mono hl (hargs a (by simp [h]))

/-- The functions of the host keep two runs in lockstep if the values that they supply may be given and
the data that they keep may be changed. -/
theorem hosts
    (hdata : ∀ {σ o n} data, R.inv σ → R.stored σ (.object o) →
      (σ.left.object o).hostInt? = some n → R.Step σ (σ.map (·.setHostData o data)))
    (hconstant : ∀ {σ v}, R.host (.constant v) → R.inv σ → R.good σ v v)
    (hinvalid : ∀ {σ}, R.host .invalid → R.inv σ → R.good σ .invalid .invalid) : R.Hosts := by
  intro i i' f this args σ I hf hs hthis hargs
  have hargument : R.stored σ (Eval.argument args 0) := L.stored_getD 0 hargs
  cases f with
  | constant v => exact L.pure hs (hconstant hf hs)
  | sum =>
    apply L.next (L.sumOf 0 hs hargs)
    intro total τ hτ hl _
    have htotal : R.stored τ (.int total) := L.literal τ trivial
    have hnew := (L.extend "last" false hτ (L.stored_mono hl hthis) htotal).1
    apply L.update hnew
    exact L.pure hnew.inv (L.good_of_stored (L.literal _ trivial))
  | bump =>
    apply Keeps.look (L.hostInt? hs hthis)
    cases hn : (σ.left.object this).hostInt? with
    | some n =>
      have hstep := hdata (.int (n + 1)) hs hthis hn
      apply L.change hstep
      exact L.pure hstep.inv (L.good_of_stored (L.literal _ trivial))
    | none => exact L.pure hs (L.good_undefined σ)
  | thisType =>
    apply Keeps.look (L.typeName hs hthis)
    exact L.given (L.newStringValue _ hs)
  | thisObject => exact L.pure hs (L.good_of_stored hthis)
  | contextThis =>
    apply Keeps.look (L.this hs)
    exact L.pure hs (L.good_of_stored (L.stored_this hs))
  | argumentCount => exact L.pure hs (L.good_of_stored (L.literal σ trivial))
  | invalid => exact L.pure hs (hinvalid hf hs)
  | throwText =>
    apply Keeps.look (L.storedText hs hargument)
    exact L.fail _ hs
  | throwValue => exact L.throwValue hs (L.good_of_stored hargument)
  | callArgument =>
    exact I.call hs (L.good_of_stored hargument) fun a h => hargs a (List.mem_of_mem_drop h)
  | backtrace =>
    apply Keeps.look (by rw [L.backtrace hs])
    exact L.given (L.newStringValue _ hs)
  | bindLocal =>
    have hbind := L.declare "local" false hs hargument
    apply L.update hbind
    apply L.bind (L.resolve "local" hbind.inv)
    intro r r' τ hτ _ hr
    exact L.pure hτ hr

theorem missingClass (required : Option ClassId) (hs : R.inv σ)
    (hthis : R.stored σ (.object this)) :
    R.Keeps σ (Alike fun _ _ => True) (Eval.missingClass required this)
      (Eval.missingClass required this) := by
  unfold Eval.missingClass
  cases required with
  | none => exact L.give hs trivial
  | some c =>
    have hstep := L.settle [c] hs
    apply L.change hstep
    have hthis' := L.stored_mono hstep.leads hthis
    apply L.bind (L.settling hstep.inv hthis')
    intro _ _ τ hτ hl _
    refine L.see hτ ?_ trivial
    rw [State.classInfo_congr (L.classes hτ), L.isInstanceOf hτ (L.stored_mono hl hthis')]

theorem bindParams (names : List String) (hs : R.inv σ) (hargs : ∀ a ∈ args, R.stored σ a) :
    R.Keeps σ (fun _ _ _ => True) (Eval.bindParams names args) (Eval.bindParams names args) := by
  induction names generalizing σ args with
  | nil => exact L.pure hs trivial
  | cons name names ih =>
    have hhead : R.stored σ (args.headD .undefined) := by
      cases args with
      | nil => exact L.literal σ trivial
      | cons a rest => exact hargs a (by simp)
    unfold Eval.bindParams
    apply L.derefs hs (L.good_of_stored hhead)
    intro d hd
    have hbind := L.declare name false hs hd
    apply L.update hbind
    exact ih hbind.inv fun a h => L.stored_mono hbind.leads (hargs a (List.mem_of_mem_tail h))

section
variable (I : R.Interprets i i')
include I

/-- Related functions written in the language give the same value in both runs. -/
theorem callScript {f f' : FunctionDef} (hf : f.Pairs R.stmt f') (hs : R.inv σ)
    (hargs : ∀ a ∈ args, R.stored σ a) :
    R.Keeps σ (Alike R.stored) (Eval.callScript i f args) (Eval.callScript i' f' args) := by
  unfold Eval.callScript
  rw [← hf.params]
  apply L.bind (L.bindParams _ hs hargs)
  intro _ _ τ hτ _ _
  apply L.bind (L.runItems (I.executeAll hf.body) hτ (L.good_undefined τ))
  intro c c' υ hυ _ hc
  cases hc with
  | normal _ => exact L.give hυ (L.literal υ trivial)
  | returned hv => exact L.give hυ hv
  | broken => exact L.fail _ hυ
  | continued => exact L.fail _ hυ

end

end Inner

/-! Calls and included texts. -/

namespace Lawful

variable {R : Lockstep} {σ : Duo} {i i' : Interp} (L : R.Lawful)
include L

section
variable (I : R.Interprets i i')
include I

theorem includeSource (path source : String) (hs : R.inv σ) (hsource : R.text source) :
    R.Keeps σ (Alike R.stored) (Eval.includeSource i path source)
      (Eval.includeSource i' path source) := by
  have hp := L.pushGlobal ("<include " ++ path ++ ">") hs
  refine L.inFrame hp ?_ fun _ _ _ h => ⟨h.1, L.stored_pop h.2⟩
  apply L.next (L.runCode I source .included hp.inv hsource)
  intro r τ hτ _ hr
  match r with
  | .ok v => exact L.give hτ hr
  | .error (.uncaught e) => exact L.rethrow hτ hr
  | .error (.lexer d) =>
    apply Keeps.look rfl
    exact L.fail _ hτ
  | .error (.parser ds) =>
    apply Keeps.look rfl
    exact L.fail _ hτ
  | .error (.output reason) =>
    apply Keeps.look rfl
    exact L.fail _ hτ

theorem includeFile (hs : R.inv σ) (hargs : ∀ a ∈ args, R.stored σ a) :
    R.Keeps σ (Alike R.stored) (Eval.includeFile i args) (Eval.includeFile i' args) := by
  unfold Eval.includeFile
  apply L.next (L.isDefined 0 hs hargs)
  intro given τ hτ hl _
  cases given with
  | true =>
    apply Keeps.look (L.storedText hτ (L.stored_mono hl (L.stored_getD 0 hargs)))
    apply L.next (L.readFile _ hτ)
    intro answer υ hυ _ hanswer
    cases answer with
    | ok source => exact L.includeSource I _ source hυ (hanswer source rfl)
    | error e => exact L.fail _ hυ
  | false => exact L.fail _ hτ

theorem callBuiltin (function : Builtin) (hs : R.inv σ) (hthis : R.stored σ (.object this))
    (hargs : ∀ a ∈ args, R.stored σ a) :
    R.Keeps σ (Alike R.stored) (Eval.callBuiltin i function this args)
      (Eval.callBuiltin i' function this args) := by
  cases function with
  | construct => exact L.constructWrapped hs hargs hthis
  | stringLength =>
    apply Keeps.look (L.objectString hs hthis)
    exact L.give hs (L.literal σ trivial)
  | stringConcat =>
    apply Keeps.look (by rw [L.objectString hs hthis, L.joinedText hs hargs])
    exact L.newStringValue _ hs
  | stringSubstring => exact L.stringSubstring hs hargs hthis
  | stringFromCodepoints =>
    apply L.next (L.charactersOf hs hargs)
    intro chars τ hτ _ _
    exact L.newStringValue _ hτ
  | exceptionPrint => exact L.exceptionPrint hs hthis
  | systemWrite => exact L.systemWrite hs hargs
  | systemWriteln => exact L.systemWriteln hs hargs
  | systemDump =>
    apply L.bind (L.dumpAll hs hargs)
    intro _ _ τ hτ _ _
    exact L.give hτ (L.literal τ trivial)
  | systemBacktrace => exact L.systemBacktrace hs
  | systemThrows => exact L.systemThrows I hs hargs
  | includeFile => exact L.includeFile I hs hargs
  | toInt =>
    apply L.next (L.storedToInt hs (L.stored_getD 0 hargs))
    intro n τ hτ _ _
    exact L.give hτ (L.literal τ trivial)
  | toBool =>
    apply L.truths hs (L.good_of_stored (L.stored_getD 0 hargs))
    intro b
    exact L.give hs (L.literal σ trivial)

/-- A native function keeps what its host keeps. -/
theorem callNative {Q : Duo → Value → Value → Prop} {function : NativeFunction}
    (hQ : ∀ τ v, R.stored τ v → Q τ v v)
    (H : ∀ h τ, function.callback = .host h → R.inv τ → R.stored τ (.object this) →
      (∀ a ∈ args, R.stored τ a) → R.Keeps τ Q (Eval.callHost i h this args)
        (Eval.callHost i' h this args))
    (hs : R.inv σ) (hthis : R.stored σ (.object this)) (hargs : ∀ a ∈ args, R.stored σ a) :
    R.Keeps σ Q (Eval.callNative i function this args) (Eval.callNative i' function this args) := by
  unfold Eval.callNative
  apply L.next (L.missingClass _ hs hthis)
  intro missing τ hτ hl _
  have hthisτ := L.stored_mono hl hthis
  have hargsτ : ∀ a ∈ args, R.stored τ a := fun a h => L.stored_mono hl (hargs a h)
  cases missing with
  | some c =>
    apply Keeps.look (L.typeName hτ hthisτ)
    apply Keeps.look (by rw [State.classInfo_congr (L.classes hτ)])
    exact L.fail _ hτ
  | none =>
    cases hcallback : function.callback with
    | builtin builtin => exact (L.callBuiltin I builtin hτ hthisτ hargsτ).of_alike hQ
    | host host => exact H host τ hcallback hτ hthisτ hargsτ

theorem callObject {Q : Duo → Value → Value → Prop} {callee this : ObjectId}
    (hQ : ∀ τ v, R.stored τ v → Q τ v v)
    (H : ∀ f h τ, (σ.left.object callee).callable? = some (.native f) → f.callback = .host h →
      R.inv τ → R.stored τ (.object this) → (∀ a ∈ args, R.stored τ a) →
      R.Keeps τ Q (Eval.callHost i h this args) (Eval.callHost i' h this args))
    (hs : R.inv σ) (hcallee : R.stored σ (.object callee)) (hthis : R.stored σ (.object this))
    (hargs : ∀ a ∈ args, R.stored σ a) :
    R.Keeps σ Q (Eval.callObject i callee this args) (Eval.callObject i' callee this args) := by
  unfold Eval.callObject
  apply Keeps.look (L.behavior? hs hcallee)
  have hnot : R.Keeps σ Q (do
      Eval.fail (.notCallable (← Eval.look (·.typeName callee)))) (do
      Eval.fail (.notCallable (← Eval.look (·.typeName callee)))) := by
    apply Keeps.look (L.typeName hs hcallee)
    exact L.fail _ hs
  cases σ.left.behavior? callee with
  | none => exact L.fail _ hs
  | some behavior =>
    cases behavior with
    | function =>
      have hcallable := L.callable? hs hcallee
      rw [keeps_look]
      generalize hx : (σ.left.object callee).callable? = x at hcallable ⊢
      generalize (σ.right.object callee).callable? = y at hcallable ⊢
      cases hcallable with
      | none => exact L.fail _ hs
      | some hcallable =>
        cases hcallable with
        | native f => exact L.callNative I hQ (fun h τ => H f h τ hx) hs hthis hargs
        | script hf => exact (L.callScript I hf hs hargs).of_alike hQ
    | echo =>
      apply Keeps.look (by rw [L.typeName hs hthis])
      exact (L.newStringValue _ hs).of_alike hQ
    | _ => exact hnot

theorem callStep {v v' : Value} (H : R.Hosts) (hs : R.inv σ) (hv : R.good σ v v')
    (hargs : ∀ a ∈ args, R.stored σ a) :
    R.Keeps σ R.good (Eval.callStep i v args) (Eval.callStep i' v' args) := by
  unfold Eval.callStep
  apply L.derefs hs hv
  intro d hd
  cases d with
  | object callee =>
    dsimp only
    rw [keeps_look, ← L.frameName hs hv hd, ← (L.reference hv).containerOf]
    refine L.holding hs ?_ ?_ fun _ _ _ _ => L.good_mono
    · exact .append (.append (.value (L.good_of_stored hd)) (.value hv)) (L.handed_stored hargs)
    · intro τ hτ hl
      have hcontainer := fun o ho => L.stored_mono hl (L.stored_containerOf (o := o) hv ho)
      have hp := L.pushCall (Eval.frameName σ.left v callee (Eval.containerOf v)) hτ hcontainer
      have hcallee := hp.stored _ (L.stored_mono hl hd)
      refine L.inFrame hp ?_ fun _ _ _ => L.good_pop
      refine L.callObject I (fun _ _ => L.good_of_stored) ?_ hp.inv hcallee ?_ fun a h =>
        hp.stored a (L.stored_mono hl (hargs a h))
      · intro f h τ hf hcallback hτ
        exact H I (L.hostOf hp.inv hcallee hf hcallback) hτ
      · cases ho : Eval.containerOf v with
        | none =>
          rw [ho] at hcallee
          exact hcallee
        | some o =>
          rw [ho] at hp
          exact hp.stored _ (hcontainer o ho)
  | _ => exact L.fail _ hs

end

/-- Every bound on the length of evaluation. -/
theorem interprets (H : R.Hosts) (n : Nat) : R.Interprets (Eval.interp n) (Eval.interp n) := by
  induction n with
  | zero => exact ⟨⟨rfl, fun _ _ => .outOfFuel, fun _ _ _ => .outOfFuel⟩, fun _ _ _ => .outOfFuel⟩
  | succ n ih =>
    exact ⟨⟨rfl, fun he hs => L.evaluateStep ih.toEvaluates he hs,
      fun hs hv hargs => L.callStep ih H hs hv hargs⟩, fun h _ hs => L.executeStep ih h hs⟩

end Lawful

end Scripting.Lockstep
