import Scripting.Proofs.Isolation.Veil

/-!
Two runs behind a veil go in lockstep: what they give, store, throw, show and write is the same.
-/

namespace Scripting

/-- Values that two runs may give: the same shown value, or references to corresponding slots that were
found under the same name in the same object. -/
inductive Corresponds (s t : State) : Value → Value → Prop where
  | same {v : Value} (h : Shown s v) : Corresponds s t v v
  | reference {i j : SlotId} {container : Option ObjectId} {name : Option String}
      (hij : Paired s t i j) (h : ∀ o, container = some o → ¬s.IsScope o) :
      Corresponds s t (.reference ⟨i, container, name⟩) (.reference ⟨j, container, name⟩)

theorem Shown.isReference {s : State} {v : Value} (h : Shown s v) : v.isReference = false := by
  cases v with
  | reference r => exact h.elim
  | _ => rfl

/-- Two runs that started in `s` and `t`. -/
def Lockstep.veiled (s t : State) : Lockstep where
  inv σ := Veiled s t σ
  leads σ τ := τ.left.frames = σ.left.frames
  good _ v v' := Corresponds s t v v'
  stored _ v := Shown s v
  raised _ e := Shown s e.value
  expr := Eq
  stmt := Eq
  code := Eq
  host _ := False

namespace Veiled

open State

variable {s t : State} {σ : Duo} (h : Veiled s t σ)
include h

theorem classes : σ.left.classes = σ.right.classes :=
  congrArg Setting.classes h.setting

theorem frames : σ.left.frames = σ.right.frames :=
  congrArg Setting.frames h.setting

theorem global_eq : σ.left.global = σ.right.global :=
  congrArg Setting.global h.setting

theorem globalThis_eq : σ.left.globalThis = σ.right.globalThis :=
  congrArg Setting.globalThis h.setting

/-- A reference to a slot that is seen leads to a shown value, the same in both runs. -/
theorem read {i j : SlotId} {container : Option ObjectId} {name : Option String}
    (hij : Paired s t i j) :
    σ.left.read ⟨i, container, name⟩ = σ.right.read ⟨j, container, name⟩ ∧
      Shown s (σ.left.read ⟨i, container, name⟩) :=
  ⟨congrArg Slot.value (h.slot _ _ hij), h.shown _ _ hij⟩

theorem deref {v v' : Value} (hv : Corresponds s t v v') :
    σ.left.deref v = σ.right.deref v' ∧ Shown s (σ.left.deref v) := by
  cases hv with
  | same hv =>
    rw [deref_of_not_reference _ hv.isReference, deref_of_not_reference _ hv.isReference]
    exact ⟨rfl, hv⟩
  | reference hij _ =>
    obtain ⟨hsame, hshown⟩ := h.read hij
    rw [deref_reference _ hshown.isReference, deref_reference _ (hsame ▸ hshown.isReference)]
    exact ⟨hsame, hshown⟩

end Veiled

theorem Lockstep.veiled_sighted (s t : State) : (veiled s t).Sighted where
  good_of_stored h := .same h
  classes h := h.classes
  classId h ho := (h.object _ ho).classId
  payload h ho := by
    rw [← (h.object _ ho).payload]
    exact Payload.pairs_self fun _ _ => FunctionDef.pairs_self fun _ _ => rfl
  deref h hv := (h.deref hv).1
  stored_deref h hv := (h.deref hv).2

namespace Veiled

open State

variable {s t : State} {σ : Duo} (h : Veiled s t σ) {o : ObjectId}
include h

/-! What is shown of objects. -/

theorem objectMethodNames (ho : ¬s.IsScope o) :
    σ.left.objectMethodNames o = σ.right.objectMethodNames o := by
  simp only [State.objectMethodNames, (h.object o ho).classId, methodNames_congr h.classes]

/-- The dump of a value is that of its members, if it is an object. -/
theorem dumpWith {visiting : List ObjectId} {members members' : ObjectId → String} {v : Value}
    (hmembers : ∀ o, ¬s.IsScope o → members o = members' o) (hv : Shown s v) (n n' : Nat) :
    σ.left.dumpWith visiting members n v = σ.right.dumpWith visiting members' n' v := by
  have L := Lockstep.veiled_sighted s t
  cases v with
  | object o =>
    have htype : σ.left.typeName o = σ.right.typeName o := L.typeName h hv
    rw [dumpWith_object, dumpWith_object, htype, hmembers o hv]
  | reference r => exact hv.elim
  | _ => cases n <;> cases n' <;> rfl

theorem memberText {visiting : List ObjectId} {members members' : ObjectId → String} {v : Value}
    (dump : Bool) (hmembers : ∀ o, ¬s.IsScope o → members o = members' o) (hv : Shown s v) :
    σ.left.memberText dump visiting members v = σ.right.memberText dump visiting members' v := by
  have L := Lockstep.veiled_sighted s t
  have htext : σ.left.text v = σ.right.text v := L.storedText h hv
  unfold State.memberText
  rw [h.dumpWith hmembers hv]
  congr 1
  cases v with
  | object o =>
    have htype : σ.left.typeName o = σ.right.typeName o := L.typeName h hv
    have hbrief : σ.left.brief o = σ.right.brief o := L.brief h hv
    simp only [(h.object o hv).classId, htype, hbrief, hmembers o hv]
  | _ => exact htext

/-- The two runs show the same members. -/
theorem membersUpTo (dump : Bool) (n : Nat) (visiting : List ObjectId) (ho : ¬s.IsScope o) :
    σ.left.membersUpTo dump n visiting o = σ.right.membersUpTo dump n visiting o := by
  induction n generalizing visiting o with
  | zero => rfl
  | succ n ih =>
    have hmembers := (h.object o ho).members
    have hnames := h.objectMethodNames ho
    have hempty : (σ.left.object o).members.entries.isEmpty =
        (σ.right.object o).members.entries.isEmpty := by
      have hmap := hmembers.map_entries (f := Prod.fst) (g := Prod.fst) fun _ _ _ _ => rfl
      simpa only [List.isEmpty_map] using congrArg List.isEmpty hmap
    have hentries : ∀ visiting, (σ.left.object o).members.entries.map (fun m => "  " ++ m.1 ++ ": " ++
          σ.left.memberText dump visiting (σ.left.membersUpTo dump n visiting)
            (σ.left.slot m.2).value) =
        (σ.right.object o).members.entries.map (fun m => "  " ++ m.1 ++ ": " ++
          σ.right.memberText dump visiting (σ.right.membersUpTo dump n visiting)
            (σ.right.slot m.2).value) := by
      intro visiting
      apply hmembers.map_entries
      intro name i j hij
      dsimp only
      rw [← h.slot i j hij, h.memberText dump (fun o ho => ih visiting ho) (h.shown i j hij)]
    simp only [State.membersUpTo, hempty, hnames, hentries]

theorem membersText (ho : ¬s.IsScope o) (dump : Bool) :
    σ.left.membersText dump o = σ.right.membersText dump o := by
  rw [State.membersText, State.membersText, h.size, h.membersUpTo dump _ _ ho]

theorem dump {v : Value} (hv : Shown s v) : σ.left.dump v = σ.right.dump v := by
  rw [State.dump, State.dump, h.size]
  exact h.dumpWith (fun o ho => h.membersUpTo true _ _ ho) hv _ _

/-! Names. -/

theorem own? (ho : ¬s.IsScope o) (name : String) :
    Option.Rel (Paired s t) (σ.left.own? o name) (σ.right.own? o name) :=
  (h.object o ho).members.find? name

theorem parentScope? (ho : ¬s.IsScope o) :
    (σ.left.object o).parentScope? = (σ.right.object o).parentScope? := by
  rw [Object.parentScope?, Object.parentScope?, (h.object o ho).payload]

/-- No chain of scopes that starts in front of the veil leads behind it. -/
theorem findScope (name : String) (n : Nat) (ho : ¬s.IsScope o) :
    Option.Rel (fun p p' => p.1 = p'.1 ∧ Paired s t p.2 p'.2)
      (σ.left.findScope name n o) (σ.right.findScope name n o) := by
  induction n generalizing o with
  | zero => exact .none
  | succ n ih =>
    unfold State.findScope
    have hown := h.own? ho name
    generalize σ.left.own? o name = x at hown ⊢
    generalize σ.right.own? o name = y at hown ⊢
    cases hown with
    | some hij => exact .some ⟨rfl, hij⟩
    | none =>
      rw [← h.parentScope? ho]
      cases hparent : (σ.left.object o).parentScope? with
      | none => exact .none
      | some parent => exact ih ((h.object o ho).parent parent hparent)

/-! Frames. -/

theorem currentScope : ¬s.IsScope σ.left.currentScope := by
  have hcurrent := h.current
  unfold State.currentScope
  cases hframes : σ.left.frames with
  | nil => exact h.global
  | cons frame rest => exact (hcurrent frame (by rw [hframes]; rfl)).2

theorem thisObject : ¬s.IsScope σ.left.thisObject := by
  have hcurrent := h.current
  unfold State.thisObject
  cases hframes : σ.left.frames with
  | nil => exact h.globalThis
  | cons frame rest => exact (hcurrent frame (by rw [hframes]; rfl)).1

theorem currentScope_eq : σ.left.currentScope = σ.right.currentScope := by
  rw [State.currentScope, State.currentScope, ← h.frames, h.global_eq]

theorem thisObject_eq : σ.left.thisObject = σ.right.thisObject := by
  rw [State.thisObject, State.thisObject, ← h.frames, h.globalThis_eq]

/-- What is outside of the heap may change, in both runs alike. -/
theorem outside {τ : Duo} (hheap : σ.left.SameHeap τ.left ∧ σ.right.SameHeap τ.right)
    (hsetting : τ.left.setting = τ.right.setting)
    (hcurrent : ∀ frame ∈ τ.left.frames.head?, ¬s.IsScope frame.this ∧ ¬s.IsScope frame.scope) :
    Veiled s t τ := by
  obtain ⟨left, right⟩ := τ
  obtain ⟨⟨_, _, _, _, rfl⟩, _, _, _, _, rfl⟩ := hheap
  exact { h with
    setting := hsetting
    current := hcurrent
    leaves_left := ⟨h.leaves_left.object, h.leaves_left.slot⟩
    leaves_right := ⟨h.leaves_right.object, h.leaves_right.slot⟩ }

theorem push {frame frame' : Frame} (hframe : frame = frame') (hthis : ¬s.IsScope frame.this)
    (hscope : ¬s.IsScope frame.scope) :
    Veiled s t ⟨{ σ.left with frames := frame :: σ.left.frames },
      { σ.right with frames := frame' :: σ.right.frames }⟩ := by
  subst hframe
  refine h.outside ⟨⟨_, _, _, _, rfl⟩, _, _, _, _, rfl⟩ ?_ ?_
  · exact congrArg (fun g => { g with frames := frame :: g.frames }) h.setting
  · rintro _ ⟨⟩
    exact ⟨hthis, hscope⟩

/-- Frames that both runs have put on their stacks come off again. -/
theorem pushes {τ : Duo} (hτ : Veiled s t τ) (hframes : τ.left.frames.tail = σ.left.frames) :
    (Lockstep.veiled s t).Pushes σ τ where
  inv := hτ
  good _ _ hv := hv
  stored _ hv := hv
  back υ hυ hl := by
    have hstack : υ.left.popFrame.frames = σ.left.frames := by
      rw [State.popFrame, show υ.left.frames = τ.left.frames from hl, hframes]
    refine ⟨hυ.outside ⟨⟨_, _, _, _, rfl⟩, _, _, _, _, rfl⟩ ?_ ?_, hstack⟩
    · exact congrArg (fun g => { g with frames := g.frames.tail }) hυ.setting
    · intro frame hframe
      exact h.current frame (hstack ▸ hframe)

variable (S : Starts s t)
include S

/-- A new scope whose names are seen. -/
theorem addScope (parent : Option ObjectId) (hparent : ∀ o, parent = some o → ¬s.IsScope o) :
    Veiled s t (σ.map fun s => (s.addObject { payload := .scope parent }).2) := by
  apply h.addObject S
  refine ⟨rfl, rfl, Table.related_empty _, hparent, ?_⟩
  intro f g hf
  cases hf

theorem make {object : Object} (hobject : σ.left.Makes (fun _ => True) object) :
    Veiled s t (σ.map fun s => (s.addObject object).2) := by
  apply h.addObject S
  refine ⟨rfl, rfl, ?_, ?_, hobject.callback_ne_host⟩
  · cases hobject <;> exact Table.related_empty _
  · cases hobject <;> exact nofun

end Veiled

namespace Lockstep

open State

variable {s t : State}

theorem veiled_lawful (S : Starts s t) : (veiled s t).Lawful where
  toSighted := veiled_sighted s t
  refl _ := rfl
  trans h h' := h'.trans h
  good_mono _ hv := hv
  stored_mono _ hv := hv
  raised_mono _ he := he
  global h := h.global_eq
  this h := h.thisObject_eq
  scope h := h.currentScope_eq
  backtrace h := by rw [State.backtrace, State.backtrace, h.frames]
  files path h := .inl (congrArg (fun setting => setting.files.read path) h.setting)
  output h := congrArg Setting.output h.setting
  errorOutput h := congrArg Setting.errorOutput h.setting
  size h := h.size
  members h ho := h.membersText ho false
  dump h hv := h.dump hv
  literal := by
    intro v σ hv
    cases v with
    | object o => exact hv.elim
    | reference r => exact hv.elim
    | _ => trivial
  stored_this h := h.thisObject
  stored_global h := h.global
  raise _ hv := hv
  raised_value he := he
  reference hv := by
    cases hv with
    | same _ => exact .inl rfl
    | reference _ _ => exact .inr ⟨_, _, rfl, rfl, rfl, rfl⟩
  container hv ho := by
    cases hv with
    | same hv => exact hv.elim
    | reference _ hcontainer => exact hcontainer _ ho
  read h hr := by
    cases hr with
    | same hr => exact hr.elim
    | reference hij _ =>
      rw [← (h.read hij).1]
      exact .same (h.read hij).2
  readOnly h hr := by
    cases hr with
    | same hr => exact hr.elim
    | reference hij _ => rw [h.slot _ _ hij]
  write h hr _ hv := by
    cases hr with
    | same hr => exact hr.elim
    | reference hij _ => exact ⟨h.writeSlot S hij hv, rfl⟩
  own := by
    intro σ o name h ho
    have hown := h.own? ho name
    generalize σ.left.own? o name = x at hown
    generalize σ.right.own? o name = y at hown
    cases hown with
    | none => exact .none
    | some hij => exact .some (.reference hij (by rintro _ ⟨⟩; exact ho))
  found := by
    intro σ name h
    have hfound := h.findScope name (σ.left.objects.size + 1) h.currentScope
    rw [← h.size, ← h.currentScope_eq]
    generalize σ.left.findScope name _ _ = x at hfound
    generalize σ.right.findScope name _ _ = y at hfound
    cases hfound with
    | none => exact .none
    | some hp =>
      refine .some ⟨hp.1, .reference hp.2 ?_⟩
      intro o ho
      split at ho
      · cases ho
        exact h.global
      · cases ho
  make h hmade := by
    obtain ⟨rfl, hobject⟩ := hmade.eq fun _ _ h => h
    exact ⟨⟨h.make S hobject, rfl⟩, h.new_not_scope (Nat.le_refl _)⟩
  allocate := by
    intro σ o v name readOnly h ho hv
    have hvisible : ¬s.IsScope o := by
      rcases ho with rfl | ho
      · exact h.currentScope
      · exact ho
    refine ⟨⟨h.allocate S hvisible name hv readOnly, rfl⟩, fun _ => ?_⟩
    exact .reference (h.paired_added ⟨v, readOnly, some name⟩) (by rintro _ ⟨⟩; exact hvisible)
  method := by
    intro σ o name f h ho hf
    obtain ⟨k, hk⟩ := exists_method_of_objectMethod? hf
    have hshown : Shown s (.object f) := h.methods k name f hk
    refine ⟨⟨h.addSlot S hshown, rfl⟩, ?_⟩
    exact .reference (h.paired_added _) (by rintro _ ⟨⟩; exact ho)
  append text h := by
    refine ⟨h.outside ⟨⟨_, _, _, _, rfl⟩, _, _, _, _, rfl⟩ ?_ h.current, rfl⟩
    exact congrArg (fun g => { g with output := g.output.append text }) h.setting
  appendError text h := by
    refine ⟨h.outside ⟨⟨_, _, _, _, rfl⟩, _, _, _, _, rfl⟩ ?_ h.current, rfl⟩
    exact congrArg (fun g => { g with errorOutput := g.errorOutput.append text }) h.setting
  mortal h := h.immortal.1.trans h.immortal.2.symm
  hold h _ := ⟨h.outside ⟨⟨_, _, _, _, rfl⟩, _, _, _, _, rfl⟩ h.setting h.current, rfl⟩
  free _ h _ := ⟨h.outside ⟨⟨_, _, _, _, rfl⟩, _, _, _, _, rfl⟩ h.setting h.current, rfl⟩
  settle := by
    intro σ classes h
    have hsame : σ.map (·.settleAmong classes) = σ := by
      rw [Duo.map, settleAmong_eq_self h.immortal.1, settleAmong_eq_self h.immortal.2]
    rw [hsame]
    exact ⟨h, rfl⟩
  pushCall := by
    intro σ container name h hcontainer
    have hscope := h.addScope S none (by intro o ho; cases ho)
    refine h.pushes (hscope.push ?_ ?_ (h.new_not_scope (Nat.le_refl _))) rfl
    · rw [h.size, h.globalThis_eq]
    · cases container with
      | none => exact h.globalThis
      | some o => exact hcontainer o rfl
  pushGlobal name h :=
    h.pushes (h.push (by rw [h.globalThis_eq, h.global_eq]) h.globalThis h.global) rfl
  pushBlock := by
    intro σ h
    have hscope : Veiled s t (σ.map fun u =>
        (u.addObject { payload := .scope (some u.currentScope) }).2) := by
      rw [Duo.map_congr (g := fun u =>
        (u.addObject { payload := .scope (some σ.left.currentScope) }).2) rfl
        (by rw [h.currentScope_eq])]
      exact h.addScope S _ (by rintro _ ⟨⟩; exact h.currentScope)
    refine h.pushes (hscope.push ?_ h.thisObject (h.new_not_scope (Nat.le_refl _))) rfl
    exact congr (congrArg (Frame.mk "") h.thisObject_eq) (congrArg ObjectId.mk h.size)
  good_pop hv := hv
  stored_pop hv := hv
  raised_pop he := he
  expr_pairs {e _} he := by
    obtain rfl := he
    exact Expr.Parts.pairs (by cases e <;> simp [Expr.Parts, veiled])
  stmt_pairs {statement _} h := by
    obtain rfl := h
    exact Stmt.Parts.pairs (by cases statement <;> simp [Stmt.Parts, veiled])
  expr_code he := by cases he; rfl
  stmt_code h := by cases h; rfl
  program _ _ _ _ _ := rfl
  hostOf h ho hf hcallback := (h.object _ ho).native _ _ hf hcallback

/-- No function of the host is called. -/
theorem veiled_hosts : (veiled s t).Hosts := by
  intro i i' f this args σ _ hf
  exact hf.elim

end Lockstep

end Scripting
