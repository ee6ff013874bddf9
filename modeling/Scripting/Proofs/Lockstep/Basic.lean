import Mathlib.Data.List.Forall2
import Scripting.Eval.Run
import Scripting.Proofs.Parts

/-!
Two runs of the interpreter in lockstep.

A `Lockstep` says how the states of two runs are related between two steps, how this goes on from an
earlier pair of states to a later one, which code the two runs may go through, and which values they may
give, store and throw. Stored values and exceptions are the same in both; references may name different
slots, and the code may differ in its spans. Whether the primitive changes of the state respect such a
relation is collected in `Lockstep.Lawful`; all of it that does not concern the frames of calls and
included texts, in `Lockstep.Inner`; and what is left where no name is bound in the current scope, in
`Lockstep.Core`. The other modules of this folder go once through the evaluator and show that two runs
of related code that start in related states end alike, in related states.
-/

namespace Scripting

/-! Two pieces of code of the same form. -/

/-- Two items with the same label whose statements are related. -/
structure Item.Pairs (q : Stmt → Stmt → Prop) (item item' : Item) : Prop where
  label : item.label = item'.label
  declares : item.statement.declares = item'.statement.declares
  statement : q item.statement item'.statement

/-- Two functions with the same name and parameters whose bodies are related. -/
structure FunctionDef.Pairs (q : Stmt → Stmt → Prop) (f f' : FunctionDef) : Prop where
  name : f.name = f'.name
  params : f.params = f'.params
  body : List.Forall₂ (Item.Pairs q) f.body f'.body

section

variable (p : Expr → Expr → Prop) (q : Stmt → Stmt → Prop)

/-- Two expressions of the same form whose parts are related. -/
inductive Expr.Pairs : Expr → Expr → Prop where
  | integer {a b : Span} (n : Int64) : Pairs (.integer a n) (.integer b n)
  | string {a b : Span} (text : String) : Pairs (.string a text) (.string b text)
  | identifier {a b : Span} (name : String) : Pairs (.identifier a name) (.identifier b name)
  | special {a b : Span} (value : Special) : Pairs (.special a value) (.special b value)
  | member {a b : Span} {o o' : Expr} (name : String) (h : p o o') :
      Pairs (.member a o name) (.member b o' name)
  | call {a b : Span} {f f' : Expr} {args args' : List Expr} (h : p f f')
      (hargs : List.Forall₂ p args args') : Pairs (.call a f args) (.call b f' args')
  | subscript {a b : Span} {o o' i i' : Expr} (ho : p o o') (hi : p i i') :
      Pairs (.subscript a o i) (.subscript b o' i')
  | construct {a b : Span} {f f' : Expr} {args args' : List Expr} (h : p f f')
      (hargs : List.Forall₂ p args args') : Pairs (.construct a f args) (.construct b f' args')
  | unary {a b : Span} {e e' : Expr} (op : UnaryOp) (h : p e e') :
      Pairs (.unary a op e) (.unary b op e')
  | binary {a b : Span} {e e' r r' : Expr} (op : BinaryOp) (he : p e e') (hr : p r r') :
      Pairs (.binary a op e r) (.binary b op e' r')
  | assign {a b : Span} {e e' r r' : Expr} (op : AssignOp) (he : p e e') (hr : p r r') :
      Pairs (.assign a op e r) (.assign b op e' r')
  | function {a b : Span} {f f' : FunctionDef} (h : f.Pairs q f') :
      Pairs (.function a f) (.function b f')
  | error {a b : Span} (errors errors' : List ParseError) :
      Pairs (.error a errors) (.error b errors')

/-- Two statements of the same form whose parts are related. -/
inductive Stmt.Pairs : Stmt → Stmt → Prop where
  | expression {a b : Span} {e e' : Expr} (h : p e e') : Pairs (.expression a e) (.expression b e')
  | block {a b : Span} {items items' : List Item} (h : List.Forall₂ (Item.Pairs q) items items') :
      Pairs (.block a items) (.block b items')
  | ifElse {a b : Span} {c c' : Expr} {s s' : Stmt} {other other' : Option Stmt} (hc : p c c')
      (hs : q s s') (hother : Option.Rel q other other') :
      Pairs (.ifElse a c s other) (.ifElse b c' s' other')
  | whileLoop {a b : Span} {c c' : Expr} {s s' : Stmt} (hc : p c c') (hs : q s s') :
      Pairs (.whileLoop a c s) (.whileLoop b c' s')
  | forLoop {a b : Span} {init init' : Option Stmt} {c c' u u' : Option Expr} {s s' : Stmt}
      (hinit : Option.Rel q init init') (hc : Option.Rel p c c') (hu : Option.Rel p u u')
      (hs : q s s') : Pairs (.forLoop a init c u s) (.forLoop b init' c' u' s')
  | switch {a b : Span} {e e' : Expr} {items items' : List Item} (h : p e e')
      (hitems : List.Forall₂ (Item.Pairs q) items items') :
      Pairs (.switch a e items) (.switch b e' items')
  | tryCatch {a b : Span} {s s' t t' : Stmt} (name : String) (hs : q s s') (ht : q t t') :
      Pairs (.tryCatch a s name t) (.tryCatch b s' name t')
  | throwValue {a b : Span} {e e' : Expr} (h : p e e') : Pairs (.throwValue a e) (.throwValue b e')
  | returnValue {a b : Span} {e e' : Option Expr} (h : Option.Rel p e e') :
      Pairs (.returnValue a e) (.returnValue b e')
  | breakLoop {a b : Span} : Pairs (.breakLoop a) (.breakLoop b)
  | continueLoop {a b : Span} : Pairs (.continueLoop a) (.continueLoop b)
  | declare {a b : Span} {e e' : Option Expr} (kind : DeclarationKind) (name : String)
      (h : Option.Rel p e e') : Pairs (.declare a kind name e) (.declare b kind name e')
  | function {a b : Span} {f f' : FunctionDef} (h : f.Pairs q f') :
      Pairs (.function a f) (.function b f')
  | error {a b : Span} (errors errors' : List ParseError) :
      Pairs (.error a errors) (.error b errors')

end

/-- The same native function, or two related functions written in the language. -/
inductive Callable.Pairs (r : FunctionDef → FunctionDef → Prop) : Callable → Callable → Prop where
  | native (f : NativeFunction) : Pairs r (.native f) (.native f)
  | script {f f' : FunctionDef} (h : r f f') : Pairs r (.script f) (.script f')

/-- Two related functions, or the same payload. -/
inductive Payload.Pairs (r : FunctionDef → FunctionDef → Prop) : Payload → Payload → Prop where
  | function {f f' : Callable} (h : f.Pairs r f') : Pairs r (.function f) (.function f')
  | other (payload : Payload) (h : ∀ f, payload ≠ .function f) : Pairs r payload payload

/-! Code beside itself. -/

section

variable {p : Expr → Expr → Prop} {q : Stmt → Stmt → Prop} {r : FunctionDef → FunctionDef → Prop}

theorem Option.rel_self {α : Type} {r : α → α → Prop} {o : Option α} (h : ∀ a, o = some a → r a a) :
    Option.Rel r o o := by
  cases o with
  | none => exact .none
  | some a => exact .some (h a rfl)

theorem Item.pairs_self {items : List Item} (h : ∀ item ∈ items, q item.statement item.statement) :
    List.Forall₂ (Item.Pairs q) items items :=
  List.forall₂_same.2 fun item hitem => ⟨rfl, rfl, h item hitem⟩

theorem FunctionDef.pairs_self {f : FunctionDef}
    (h : ∀ item ∈ f.body, q item.statement item.statement) : f.Pairs q f :=
  ⟨rfl, rfl, Item.pairs_self h⟩

theorem Payload.pairs_self {payload : Payload}
    (h : ∀ f, payload = .function (.script f) → r f f) : payload.Pairs r payload := by
  cases payload with
  | function f =>
    cases f with
    | native f => exact .function (.native f)
    | script f => exact .function (.script (h f rfl))
  | _ => exact .other _ nofun

theorem Expr.Parts.pairs {e : Expr} (h : e.Parts (fun e => p e e) fun s => q s s) :
    e.Pairs p q e := by
  cases e with
  | member => exact .member _ h
  | call => exact .call h.1 (List.forall₂_same.2 h.2)
  | subscript => exact .subscript h.1 h.2
  | construct => exact .construct h.1 (List.forall₂_same.2 h.2)
  | unary => exact .unary _ h
  | binary => exact .binary _ h.1 h.2
  | assign => exact .assign _ h.1 h.2
  | function => exact .function (FunctionDef.pairs_self h)
  | _ => constructor

theorem Stmt.Parts.pairs {s : Stmt} (h : s.Parts (fun e => p e e) fun s => q s s) :
    s.Pairs p q s := by
  cases s with
  | expression => exact .expression h
  | block => exact .block (Item.pairs_self h)
  | ifElse => exact .ifElse h.1 h.2.1 (Option.rel_self h.2.2)
  | whileLoop => exact .whileLoop h.1 h.2
  | forLoop =>
    exact .forLoop (Option.rel_self h.1) (Option.rel_self h.2.1) (Option.rel_self h.2.2.1) h.2.2.2
  | switch => exact .switch h.1 (Item.pairs_self h.2)
  | tryCatch => exact .tryCatch _ h.1 h.2
  | throwValue => exact .throwValue h
  | returnValue => exact .returnValue (Option.rel_self h)
  | declare => exact .declare _ _ (Option.rel_self h)
  | function => exact .function (FunctionDef.pairs_self h)
  | _ => constructor

end

/-- The values that are neither an object nor a reference, and are valid. -/
def Value.IsLiteral : Value → Prop
  | .null | .undefined | .int _ | .bool _ => True
  | _ => False

/-- The same value, or two references that were found under the same name in the same object. -/
def Value.FoundAlike (v w : Value) : Prop :=
  v = w ∨ ∃ r r' : Reference, v = .reference r ∧ w = .reference r' ∧ r.container = r'.container ∧
    r.name = r'.name

/-- The objects that running code makes, apart from scopes. -/
inductive State.Makes (code : Stmt → Prop) (s : State) : Object → Prop where
  | string (text : String) : Makes code s { classId := some .string, payload := .string text }
  | script (definition : FunctionDef) (h : ∀ item ∈ definition.body, code item.statement) :
      Makes code s { classId := some .function, payload := .function (.script definition) }
  | fault (c : ClassId) (message : String) (h : c = .exception ∨ c = .syntaxError) :
      Makes code s { classId := some c, payload := .exception ⟨message, s.backtrace⟩ }
  | exception (o : ObjectId) (c : ClassId) (message : String)
      (h : (s.object o).wrapped? = some c) (hb : (s.classInfo c).behavior = .exception) :
      Makes code s { classId := some c, payload := .exception ⟨message, s.backtrace⟩ }
  | tally (o : ObjectId) (c : ClassId) (n : Int64)
      (h : (s.object o).wrapped? = some c) (hb : (s.classInfo c).behavior = .tally) :
      Makes code s { classId := some c, payload := .host (.int n) }
  | plain (o : ObjectId) (c : ClassId) (h : (s.object o).wrapped? = some c)
      (hs : (s.classInfo c).behavior ≠ .string) (he : (s.classInfo c).behavior ≠ .exception)
      (ht : (s.classInfo c).behavior ≠ .tally) : Makes code s { classId := some c }

theorem State.Makes.callback_ne_host {code : Stmt → Prop} {s : State} {object : Object}
    (h : s.Makes code object) (f : NativeFunction) (g : HostFunction)
    (hf : object.callable? = some (.native f)) : f.callback ≠ .host g := by
  cases h <;> cases hf

/-- An object that is a function written in the language has a definition that `code` holds of. -/
def Object.Scripts (code : FunctionDef → Prop) (object : Object) : Prop :=
  ∀ definition, object.callable? = some (.script definition) → code definition

/-- What is no function written in the language does not depend on the code. -/
theorem State.Makes.recode {code code' : Stmt → Prop} {s : State} {object : Object}
    (h : s.Makes code object) (hscripts : object.Scripts fun _ => False) : s.Makes code' object := by
  cases h with
  | string text => exact .string text
  | script f _ => exact (hscripts f rfl).elim
  | fault c message h => exact .fault c message h
  | exception o c message h hb => exact .exception o c message h hb
  | tally o c n h hb => exact .tally o c n h hb
  | plain o c h hs he ht => exact .plain o c h hs he ht

/-- The states of two runs. -/
structure Duo where
  left : State
  right : State

/-- The same change of both states. -/
def Duo.map (f : State → State) (σ : Duo) : Duo :=
  ⟨f σ.left, f σ.right⟩

structure Lockstep where
  /-- How the states of the two runs are related. -/
  inv : Duo → Prop
  /-- How two states are related to two later ones. -/
  leads : Duo → Duo → Prop
  /-- The values that an expression may give in the two runs. -/
  good : Duo → Value → Value → Prop
  /-- The values that both runs may store, pass and return. -/
  stored : Duo → Value → Prop
  /-- The exceptions that both runs may throw. -/
  raised : Duo → Exception → Prop
  /-- The expressions that the two runs may evaluate. -/
  expr : Expr → Expr → Prop
  /-- The statements that the two runs may execute. -/
  stmt : Stmt → Stmt → Prop
  /-- The functions that the two runs may define. -/
  code : FunctionDef → FunctionDef → Prop
  /-- The functions of the host that may be called. -/
  host : HostFunction → Prop
  /-- The source texts that may be run. -/
  text : String → Prop := fun _ => True
  /-- The files whose content only the second run may know. -/
  lacks : String → Prop := fun _ => False

namespace Lockstep

variable (R : Lockstep) {α β : Type}

/-- The ends of two computations that started in `σ` and whose results are related by `Q`: both give a
result, both throw the same exception, or both stop for the same reason. If the first one stops at a
file that the second one may know, it says nothing about the second one. -/
inductive Ends (σ : Duo) (Q : Duo → α → β → Prop) : Outcome α → Outcome β → Prop where
  | ok {a : α} {b : β} {s t : State} (inv : R.inv ⟨s, t⟩) (leads : R.leads σ ⟨s, t⟩)
      (result : Q ⟨s, t⟩ a b) : Ends σ Q (.ok a s) (.ok b t)
  | thrown {e : Exception} {s t : State} (inv : R.inv ⟨s, t⟩) (leads : R.leads σ ⟨s, t⟩)
      (raised : R.raised ⟨s, t⟩ e) : Ends σ Q (.thrown e s) (.thrown e t)
  | outOfFuel : Ends σ Q .outOfFuel .outOfFuel
  | needsFile (path : String) : Ends σ Q (.needsFile path) (.needsFile path)
  | lacking {path : String} {y : Outcome β} (h : R.lacks path) : Ends σ Q (.needsFile path) y

/-- Two computations that start in `σ` end alike, and their results are related by `Q`. -/
def Keeps (σ : Duo) (Q : Duo → α → β → Prop) (m : Eval α) (m' : Eval β) : Prop :=
  R.Ends σ Q (m σ.left) (m' σ.right)

/-- A change of the two states that may happen. -/
structure Step (σ τ : Duo) : Prop where
  inv : R.inv τ
  leads : R.leads σ τ

/-- A change of the two states that puts a frame on each stack. When the frames are taken off again,
what happened in between counts as a change that may happen. -/
structure Pushes (σ τ : Duo) : Prop where
  inv : R.inv τ
  good : ∀ v v', R.good σ v v' → R.good τ v v'
  stored : ∀ v, R.stored σ v → R.stored τ v
  back : ∀ τ', R.inv τ' → R.leads τ τ' → R.Step σ (τ'.map State.popFrame)

/-- How a statement may end in the two runs. -/
inductive Ended (σ : Duo) : Completion → Completion → Prop where
  | normal {v v' : Value} (h : R.good σ v v') : Ended σ (.normal v) (.normal v')
  | returned {v : Value} (h : R.stored σ v) : Ended σ (.returned v) (.returned v)
  | broken : Ended σ .broken .broken
  | continued : Ended σ .continued .continued

/-- What a source text may give in both runs. -/
def ran (σ : Duo) : Except RunError Value → Prop
  | .ok v => R.stored σ v
  | .error (.uncaught e) => R.raised σ e
  | .error _ => True

/-- What two evaluations of expressions and calls have to keep. -/
structure Evaluates (i i' : Interp) : Prop where
  fuel : i.fuel = i'.fuel
  evaluate : ∀ {e e' σ}, R.expr e e' → R.inv σ → R.Keeps σ R.good (i.evaluate e) (i'.evaluate e')
  call : ∀ {v v' args σ}, R.inv σ → R.good σ v v' → (∀ a ∈ args, R.stored σ a) →
    R.Keeps σ R.good (i.call v args) (i'.call v' args)

/-- What two executions of statements have to keep. -/
def Executes (i i' : Interp) (statement statement' : Stmt) : Prop :=
  ∀ σ, R.inv σ → R.Keeps σ R.Ended (i.execute statement) (i'.execute statement')

/-- What the two evaluations that a rule refers to have to keep. -/
structure Interprets (i i' : Interp) : Prop extends R.Evaluates i i' where
  execute : ∀ {statement statement'}, R.stmt statement statement' →
    R.Executes i i' statement statement'

/-- The functions of the host keep the two runs in lockstep. -/
def Hosts : Prop :=
  ∀ {i i' f this args σ}, R.Interprets i i' → R.host f → R.inv σ → R.stored σ (.object this) →
    (∀ a ∈ args, R.stored σ a) →
    R.Keeps σ R.good (Eval.callHost i f this args) (Eval.callHost i' f this args)

/-- Two references to slots of the two runs that were found under the same name in the same object. -/
def Refers (σ : Duo) (container : Option ObjectId) (name : String) (i j : SlotId) : Prop :=
  R.good σ (.reference ⟨i, container, some name⟩) (.reference ⟨j, container, some name⟩)

/-- The objects that the two runs make: the same, or two functions that they may define. -/
inductive Made (σ : Duo) : Object → Object → Prop where
  | same {object : Object} (h : σ.left.Makes (fun _ => True) object)
      (hscripts : object.Scripts fun _ => False) : Made σ object object
  | script {f f' : FunctionDef} (h : f.Pairs R.stmt f') (hcode : R.code f f') :
      Made σ { classId := some .function, payload := .function (.script f) }
        { classId := some .function, payload := .function (.script f') }

/-- What the two runs may hold: what values are made of that an expression may give. -/
inductive Handed (σ : Duo) : List Node → List Node → Prop where
  | nil : Handed σ [] []
  | value {v v' : Value} (h : R.good σ v v') : Handed σ v.nodes v'.nodes
  | append {nodes nodes' more more' : List Node} (h : Handed σ nodes nodes')
      (hmore : Handed σ more more') : Handed σ (nodes ++ more) (nodes' ++ more')

/-- Related states agree in the classes, in what the objects that both runs may store are, and in what
is behind related values. -/
structure Sighted : Prop where
  good_of_stored : ∀ {σ v}, R.stored σ v → R.good σ v v
  classes : ∀ {σ}, R.inv σ → σ.left.classes = σ.right.classes
  classId : ∀ {σ o}, R.inv σ → R.stored σ (.object o) →
    (σ.left.object o).classId = (σ.right.object o).classId
  payload : ∀ {σ o}, R.inv σ → R.stored σ (.object o) →
    (σ.left.object o).payload.Pairs (FunctionDef.Pairs R.stmt) (σ.right.object o).payload
  deref : ∀ {σ v v'}, R.inv σ → R.good σ v v' → σ.left.deref v = σ.right.deref v'
  stored_deref : ∀ {σ v v'}, R.inv σ → R.good σ v v' → R.stored σ (σ.left.deref v)

/-- Related states agree in what the rules look at, and the primitive changes of the state keep them
related, as long as nothing is bound in the current scope and no call and no included text is entered. -/
structure Core : Prop extends R.Sighted where
  refl : ∀ σ, R.leads σ σ
  trans : ∀ {σ τ υ}, R.leads σ τ → R.leads τ υ → R.leads σ υ
  good_mono : ∀ {σ τ v v'}, R.leads σ τ → R.good σ v v' → R.good τ v v'
  stored_mono : ∀ {σ τ v}, R.leads σ τ → R.stored σ v → R.stored τ v
  raised_mono : ∀ {σ τ e}, R.leads σ τ → R.raised σ e → R.raised τ e
  -- what is the same in both states
  global : ∀ {σ}, R.inv σ → σ.left.global = σ.right.global
  this : ∀ {σ}, R.inv σ → σ.left.thisObject = σ.right.thisObject
  scope : ∀ {σ}, R.inv σ → σ.left.currentScope = σ.right.currentScope
  backtrace : ∀ {σ}, R.inv σ → σ.left.backtrace = σ.right.backtrace
  files : ∀ {σ} (path), R.inv σ → σ.left.files.read path = σ.right.files.read path ∨
    σ.left.files.read path = none ∧ R.lacks path
  output : ∀ {σ}, R.inv σ → σ.left.output = σ.right.output
  errorOutput : ∀ {σ}, R.inv σ → σ.left.errorOutput = σ.right.errorOutput
  size : ∀ {σ}, R.inv σ → σ.left.objects.size = σ.right.objects.size
  members : ∀ {σ o}, R.inv σ → R.stored σ (.object o) →
    σ.left.membersText false o = σ.right.membersText false o
  dump : ∀ {σ v}, R.inv σ → R.stored σ v → σ.left.dump v = σ.right.dump v
  -- values
  literal : ∀ {v} (σ), v.IsLiteral → R.stored σ v
  stored_this : ∀ {σ}, R.inv σ → R.stored σ (.object σ.left.thisObject)
  stored_global : ∀ {σ}, R.inv σ → R.stored σ (.object σ.left.global)
  raise : ∀ {σ v}, R.inv σ → R.stored σ v → R.raised σ ⟨v, σ.left.backtrace⟩
  raised_value : ∀ {σ e}, R.raised σ e → R.stored σ e.value
  -- references
  reference : ∀ {σ v v'}, R.good σ v v' → v.FoundAlike v'
  container : ∀ {σ r o v'}, R.good σ (.reference r) v' → r.container = some o →
    R.stored σ (.object o)
  read : ∀ {σ r r'}, R.inv σ → R.good σ (.reference r) (.reference r') →
    R.good σ (σ.left.read r) (σ.right.read r')
  readOnly : ∀ {σ r r'}, R.inv σ → R.good σ (.reference r) (.reference r') →
    (σ.left.slot r.slot).readOnly = (σ.right.slot r'.slot).readOnly
  write : ∀ {σ r r' v}, R.inv σ → R.good σ (.reference r) (.reference r') →
    (σ.left.slot r.slot).readOnly = false → R.stored σ v →
    R.Step σ ⟨σ.left.writeSlot r.slot v, σ.right.writeSlot r'.slot v⟩
  own : ∀ {σ o} (name), R.inv σ → R.stored σ (.object o) →
    Option.Rel (R.Refers σ (some o) name) (σ.left.own? o name) (σ.right.own? o name)
  found : ∀ {σ} (name), R.inv σ →
    Option.Rel (fun p p' => p.1 = p'.1 ∧
        R.Refers σ (if p.1 = σ.left.global then some σ.left.global else none) name p.2 p'.2)
      (σ.left.findScope name (σ.left.objects.size + 1) σ.left.currentScope)
      (σ.right.findScope name (σ.right.objects.size + 1) σ.right.currentScope)
  -- new objects and slots
  make : ∀ {σ object object'}, R.inv σ → R.Made σ object object' →
    R.Step σ ⟨(σ.left.addObject object).2, (σ.right.addObject object').2⟩ ∧
      R.stored ⟨(σ.left.addObject object).2, (σ.right.addObject object').2⟩
        (.object (σ.left.addObject object).1)
  extend : ∀ {σ o v} (name readOnly), R.inv σ → R.stored σ (.object o) → R.stored σ v →
    R.Step σ (σ.map fun s => (s.allocate o name v readOnly).2) ∧
      R.Refers (σ.map fun s => (s.allocate o name v readOnly).2) (some o) name
        (σ.left.allocate o name v readOnly).1 (σ.right.allocate o name v readOnly).1
  method : ∀ {σ o name f}, R.inv σ → R.stored σ (.object o) →
    σ.left.objectMethod? o name = some f →
    R.Step σ (σ.map fun s => (s.addSlot ⟨.object f, true, some name⟩).2) ∧
      R.Refers (σ.map fun s => (s.addSlot ⟨.object f, true, some name⟩).2) (some o) name
        (σ.left.addSlot ⟨.object f, true, some name⟩).1
        (σ.right.addSlot ⟨.object f, true, some name⟩).1
  -- streams and lives
  append : ∀ {σ} (text), R.inv σ →
    R.Step σ (σ.map fun s => { s with output := s.output.append text })
  appendError : ∀ {σ} (text), R.inv σ →
    R.Step σ (σ.map fun s => { s with errorOutput := s.errorOutput.append text })
  mortal : ∀ {σ}, R.inv σ → σ.left.mortal = σ.right.mortal
  hold : ∀ {σ nodes nodes'}, R.inv σ → R.Handed σ nodes nodes' →
    R.Step σ ⟨σ.left.hold nodes, σ.right.hold nodes'⟩
  free : ∀ {σ τ}, R.inv σ → R.inv τ → R.leads σ τ →
    R.Step τ ⟨{ τ.left with held := σ.left.held }, { τ.right with held := σ.right.held }⟩
  settle : ∀ {σ} (classes), R.inv σ → R.Step σ (σ.map (·.settleAmong classes))
  -- frames
  pushBlock : ∀ {σ}, R.inv σ → R.Pushes σ (σ.map State.pushBlock)
  good_pop : ∀ {σ v v'}, R.good σ v v' → R.good (σ.map State.popFrame) v v'
  stored_pop : ∀ {σ v}, R.stored σ v → R.stored (σ.map State.popFrame) v
  raised_pop : ∀ {σ e}, R.raised σ e → R.raised (σ.map State.popFrame) e
  -- code
  expr_pairs : ∀ {e e'}, R.expr e e' → e.Pairs R.expr R.stmt e'
  stmt_pairs : ∀ {statement statement'}, R.stmt statement statement' →
    statement.Pairs R.expr R.stmt statement'
  expr_code : ∀ {span span' f f'}, R.expr (.function span f) (.function span' f') → R.code f f'
  stmt_code : ∀ {span span' f f'}, R.stmt (.function span f) (.function span' f') → R.code f f'
  text_of_file : ∀ {σ path source}, R.inv σ → σ.left.files.read path = some (.ok source) →
    R.text source := by
    exact fun _ _ => trivial
  program : ∀ {source program}, R.text source → parseProgram source = .ok program →
    program.isError = false → ∀ statement ∈ program.statements, R.stmt statement statement
  hostOf : ∀ {σ o f h}, R.inv σ → R.stored σ (.object o) →
    (σ.left.object o).callable? = some (.native f) → f.callback = .host h → R.host h

/-- Binding names in the current scope keeps related states related as well. -/
structure Inner : Prop extends R.Core where
  allocate : ∀ {σ o v} (name readOnly), R.inv σ →
    o = σ.left.currentScope ∨ R.stored σ (.object o) → R.stored σ v →
    R.Step σ (σ.map fun s => (s.allocate o name v readOnly).2) ∧
      (R.stored σ (.object o) → R.Refers (σ.map fun s => (s.allocate o name v readOnly).2) (some o)
        name (σ.left.allocate o name v readOnly).1 (σ.right.allocate o name v readOnly).1)
  extend name readOnly hs ho hv :=
    have h := allocate name readOnly hs (.inr ho) hv
    ⟨h.1, h.2 ho⟩

/-- Entering a call or an included text keeps related states related as well. -/
structure Lawful : Prop extends R.Inner where
  pushCall : ∀ {σ container} (name), R.inv σ →
    (∀ o, container = some o → R.stored σ (.object o)) →
    R.Pushes σ (σ.map (·.pushCall name container))
  pushGlobal : ∀ {σ} (name), R.inv σ → R.Pushes σ (σ.map (·.pushGlobal name))

end Lockstep

end Scripting
