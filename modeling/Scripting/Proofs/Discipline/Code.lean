import Scripting.Proofs.Discipline.Run
import Scripting.Proofs.Initial

/-!
Disciplines about code.

What is asked is which trees may be run, which functions may be defined and which texts may be read,
and nothing is asked of values. Then it is enough to look at what makes and forgets functions.
-/

namespace Scripting

namespace State

/-- Every function written in the language has a definition that `code` holds of. -/
def Scripts (code : FunctionDef → Prop) (s : State) : Prop :=
  ∀ o, (s.object o).Scripts code

variable {code : FunctionDef → Prop} {s s' : State}

/-- Functions may stay or get lost. -/
theorem Scripts.of_payloads (hs : s.Scripts code)
    (h : ∀ o, (s'.object o).payload = (s.object o).payload) : s'.Scripts code := by
  intro o definition hcallable
  rw [Object.callable?, h] at hcallable
  exact hs o definition hcallable

theorem Scripts.addObject (hs : s.Scripts code) {object : Object} (h : object.Scripts code) :
    (s.addObject object).2.Scripts code := by
  intro o
  rw [object_addObject]
  split
  · exact h
  · exact hs o

theorem Scripts.allocate (hs : s.Scripts code) (o : ObjectId) (name : String) (v : Value)
    (readOnly : Bool) : (s.allocate o name v readOnly).2.Scripts code :=
  hs.of_payloads fun o' => payload_allocate s o o' name v readOnly

theorem Scripts.setHostData (hs : s.Scripts code) (o : ObjectId) (data : HostData) :
    (s.setHostData o data).Scripts code := by
  intro o' definition hcallable
  rw [State.setHostData, object_modify] at hcallable
  split at hcallable
  · cases hcallable
  · exact hs o' definition hcallable

/-! A new interpreter has no functions written in the language. -/

theorem installs_scripts : Installs (Scripts code) where
  object hs ho := hs.addObject (by
    intro definition hcallable
    cases ho <;> cases hcallable)
  allocate name readOnly hs _ _ := hs.allocate _ name _ readOnly
  method _ _ hs _ := hs.of_payloads fun _ => rfl

theorem scripts_bare (globalMarker thisMarker : Option String) (files : Files) :
    (bare globalMarker thisMarker files).Scripts code := by
  have hplain : ∀ {s : State} (c c'), s.objects = #[⟨c, {}, .none⟩, ⟨c', {}, .none⟩] →
      s.Scripts code := by
    intro s c c' hobjects o definition hcallable
    obtain ⟨_ | _ | i⟩ := o <;> simp [object, hobjects, Object.callable?] at hcallable
    cases hcallable
  cases globalMarker <;> cases thisMarker
  · exact hplain _ _ rfl
  · exact (hplain _ _ rfl).allocate _ _ _ _
  · exact (hplain _ _ rfl).allocate _ _ _ _
  · exact ((hplain _ _ rfl).allocate _ _ _ _).allocate _ _ _ _

theorem scripts_install (globalMarker thisMarker : Option String) (files : Files) :
    (bare globalMarker thisMarker files).install.Scripts code :=
  installs_scripts.new (scripts_bare globalMarker thisMarker files)

end State

namespace Discipline

/-- The discipline that asks nothing of values. -/
def ofCode (inv : State → Prop) (expr : Expr → Prop) (stmt : Stmt → Prop)
    (code : FunctionDef → Prop) (text : String → Prop) : Discipline where
  inv := inv
  leads _ _ := True
  good _ _ := True
  stored _ _ := True
  raised _ _ := True
  expr := expr
  stmt := stmt
  host _ := True
  code := code
  text := text

/-- Code is closed under its parts, and states know only such code. -/
structure CodeLaws (inv : State → Prop) (expr : Expr → Prop) (stmt : Stmt → Prop)
    (code : FunctionDef → Prop) (text : String → Prop) : Prop where
  of_payloads : ∀ {s s'}, inv s → (∀ o, (s'.object o).payload = (s.object o).payload) →
    s'.files = s.files → inv s'
  make : ∀ {s object}, inv s → s.Makes stmt object → object.Scripts code →
    inv (s.addObject object).2
  scope : ∀ {s} (parent), inv s → inv (s.addObject { payload := .scope parent }).2
  setHostData : ∀ {s} (o data), inv s → inv (s.setHostData o data)
  expr_parts : ∀ {e}, expr e → e.Parts expr stmt
  stmt_parts : ∀ {statement}, stmt statement → statement.Parts expr stmt
  expr_code : ∀ {span definition}, expr (.function span definition) → code definition
  stmt_code : ∀ {span definition}, stmt (.function span definition) → code definition
  script : ∀ {s o definition}, inv s → (s.object o).callable? = some (.script definition) →
    ∀ item ∈ definition.body, stmt item.statement
  text_of_file : ∀ {s path source}, inv s → s.files.read path = some (.ok source) → text source
  program : ∀ {source program}, text source → parseProgram source = .ok program →
    program.isError = false → ∀ statement ∈ program.statements, stmt statement

variable {inv : State → Prop} {expr : Expr → Prop} {stmt : Stmt → Prop}
  {code : FunctionDef → Prop} {text : String → Prop} (H : CodeLaws inv expr stmt code text)
include H

theorem CodeLaws.step {s s' : State} (hs : inv s)
    (h : ∀ o, (s'.object o).payload = (s.object o).payload) (hfiles : s'.files = s.files) :
    (ofCode inv expr stmt code text).Step s s' :=
  ⟨H.of_payloads hs h hfiles, trivial⟩

theorem CodeLaws.pushes {s s₁ : State} (h : inv s₁) :
    (ofCode inv expr stmt code text).Pushes s s₁ where
  inv := h
  good _ _ := trivial
  stored _ _ := trivial
  back _ hs' _ := ⟨H.of_payloads hs' (fun _ => rfl) rfl, trivial⟩

theorem lawful_ofCode : (ofCode inv expr stmt code text).Lawful where
  refl _ := trivial
  trans _ _ := trivial
  good_mono _ _ := trivial
  stored_mono _ _ := trivial
  raised_mono _ _ := trivial
  good_of_stored _ := trivial
  literal _ _ := trivial
  deref _ _ := trivial
  this _ := trivial
  global _ := trivial
  container _ _ := trivial
  read _ _ := trivial
  raise _ _ := trivial
  raised_value _ := trivial
  make hs hmakes hscripts := ⟨⟨H.make hs hmakes hscripts, trivial⟩, trivial⟩
  allocate {s o v} name readOnly hs _ _ :=
    ⟨H.step hs (fun o' => s.payload_allocate o o' name v readOnly) rfl, fun _ => trivial⟩
  method hs _ _ := ⟨H.step hs (fun _ => rfl) rfl, trivial⟩
  own _ _ _ := trivial
  found _ _ := trivial
  write hs _ _ _ := H.step hs (fun _ => rfl) rfl
  output _ hs := H.step hs (fun _ => rfl) rfl
  errorOutput _ hs := H.step hs (fun _ => rfl) rfl
  hold hs _ := H.step hs (fun _ => rfl) rfl
  free _ hs _ := H.step hs (fun _ => rfl) rfl
  settle := by
    intro s classes hs
    obtain ⟨_, _, h⟩ := s.settleAmong_sameButLives classes
    rw [h]
    exact H.step hs (fun _ => rfl) rfl
  pushCall _ hs _ := H.pushes (H.of_payloads (H.scope none hs) (fun _ => rfl) rfl)
  pushGlobal _ hs := H.pushes (H.of_payloads hs (fun _ => rfl) rfl)
  pushBlock {s} hs :=
    H.pushes (H.of_payloads (H.scope (some s.currentScope) hs) (fun _ => rfl) rfl)
  good_pop _ := trivial
  stored_pop _ := trivial
  raised_pop _ := trivial
  expr_parts := H.expr_parts
  stmt_parts := H.stmt_parts
  expr_code := H.expr_code
  stmt_code := H.stmt_code
  script := H.script
  text_of_file := H.text_of_file
  program := H.program
  hostOf _ _ _ := trivial

theorem hosts_ofCode : (ofCode inv expr stmt code text).twin.Hosts :=
  (lawful_ofCode H).hosts (fun o data hs => ⟨H.setHostData o data hs, trivial⟩)
    (fun _ _ => trivial) fun _ _ => trivial

end Discipline

end Scripting
