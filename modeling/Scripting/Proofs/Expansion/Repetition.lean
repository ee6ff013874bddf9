import Scripting.Proofs.Liveness.Settled
import Scripting.Proofs.Session.Operand

/-!
Paths that are evaluated again.

Once a path has led to a slot, it leads to the same slot again, and nothing more happens, as long as the
state is only extended in between. This fails for a path that goes on behind a virtual member, since a
virtual member is handed out in a new slot each time, and for one that adds the name with which it begins
to a scope, since that name can hide the other one. Main statement: `Eval.path_lasts`.
-/

namespace Scripting

/-- The accesses of a path: what they are made on, and by which name. -/
inductive Expr.Access : Expr → Expr → String → Prop where
  | last (span : Span) (object : Expr) (name : String) : Access (.member span object name) object name
  | earlier (span : Span) {object y : Expr} {name' : String} (name : String)
      (h : Access object y name') : Access (.member span object name) y name'

/-- The name with which a path begins. -/
def Expr.root : Expr → String
  | .identifier _ name => name
  | .member _ object _ => object.root
  | _ => ""

namespace State

variable {s s' : State}

/-! Settling the classes of an object. -/

/-- While the object is held, the lives of its classes are settled. -/
def SettledAt (s : State) (o : ObjectId) : Prop :=
  ∀ c, (s.object o).classId = some c → (s.hold [.object o]).Settled c

theorem SettledAt.extend {o : ObjectId} (ho : s.SettledAt o) (h : s.Extends s') : s'.SettledAt o := by
  intro c hc
  rw [h.classId] at hc
  exact (ho c hc).extend (h.hold _)

/-- A reference to a virtual member. Its slot holds the function that the instances of a class share,
cannot be written, and is not the slot of a member that the object has itself. -/
def Virtual (s : State) (r : Reference) : Prop :=
  ∃ o name f, r.container = some o ∧ r.name = some name ∧ s.objectMethod? o name = some f ∧
    s.slot r.slot = ⟨.object f, true, some name⟩ ∧ s.own? o name ≠ some r.slot

theorem not_virtual_of_writable {r : Reference} (h : (s.slot r.slot).readOnly = false) :
    ¬s.Virtual r := by
  rintro ⟨_, _, _, -, -, -, hslot, -⟩
  rw [hslot] at h
  cases h

/-! Names that are looked up. -/

/-- The objects in which names are looked up, from the current scope outwards. -/
def Searched (s : State) : ObjectId → Prop :=
  Relation.ReflTransGen (fun o parent => (s.object o).parentScope? = some parent) s.currentScope

/-- In a later state no scope in which names are looked up has got the name. -/
def Unhidden (s : State) (name : String) (s' : State) : Prop :=
  ∀ o, s.Searched o → o ≠ s.global → s'.own? o name = s.own? o name

theorem Framed.scoped_of_searched (hs : s.Framed) {o : ObjectId} (ho : s.Searched o) : s.Scoped o := by
  induction ho with
  | refl => exact hs.currentScope
  | tail _ hparent ih =>
    cases ih with
    | global => exact absurd (isScope_of_parentScope? hparent) hs.global
    | scope _ hparents => exact hparents _ hparent

theorem Framed.isScope_of_searched (hs : s.Framed) {o : ObjectId} (ho : s.Searched o)
    (hne : o ≠ s.global) : s.IsScope o := by
  cases hs.scoped_of_searched ho with
  | global => exact absurd rfl hne
  | scope h _ => exact h

theorem own?_member {o o' : ObjectId} {name name' : String} (h : o' = o → name' ≠ name) :
    (s.member o name).2.own? o' name' = s.own? o' name' := by
  cases hmethod : s.objectMethod? o name with
  | some f =>
    rw [member_of_method hmethod]
    rfl
  | none =>
    cases hown : s.own? o name with
    | some i => rw [member_of_own hmethod hown]
    | none =>
      rw [member_of_absent hmethod hown]
      change ((s.addSlot _).2.bindMember o name _).own? o' name' = _
      rw [own?_bindMember, if_neg fun hsame => h hsame.1 hsame.2.2.symm]
      rfl

/-! What is found in an extended state. -/

namespace Extends

variable (h : s.Extends s')
include h

theorem has_object {o : ObjectId} (ho : s.Has (.object o)) : s'.Has (.object o) :=
  Nat.lt_of_lt_of_eq ho h.objects.symm

theorem currentScope : s'.currentScope = s.currentScope := by
  rw [State.currentScope, State.currentScope, h.frames, h.global]

/-- An object behind references is there again. -/
theorem followUpTo_eq_object (hs : s.Closed) {o : ObjectId} {n m : Nat} (hn : n ≤ m) {v : Value}
    (hv : s.HasValue v) (hend : s.followUpTo n v = .object o) : s'.followUpTo m v = .object o := by
  induction n generalizing m v with
  | zero =>
    cases hend
    cases m <;> rfl
  | succ n ih =>
    obtain ⟨m, rfl⟩ := Nat.exists_eq_add_of_le' (Nat.le_trans (Nat.le_add_left 1 n) hn)
    cases v with
    | reference r =>
      have hread : s'.slot r.slot = s.slot r.slot :=
        h.slots.slot r.slot (hasValue_reference.1 hv).1
      rw [followUpTo] at hend ⊢
      rw [hread]
      exact ih (Nat.le_of_succ_le_succ hn) (hs.hasValue_slot r.slot) hend
    | object o' => exact hend
    | _ => cases hend

theorem deref_eq_object (hs : s.Closed) {o : ObjectId} {v : Value} (hv : s.HasValue v)
    (hend : s.deref v = .object o) : s'.deref v = .object o :=
  h.followUpTo_eq_object hs (Nat.succ_le_succ h.slots.size) hv hend

theorem parentScope? (o : ObjectId) : (s'.object o).parentScope? = (s.object o).parentScope? := by
  rw [Object.parentScope?, Object.parentScope?, h.payload]

theorem searched_iff {o : ObjectId} : s'.Searched o ↔ s.Searched o := by
  simp only [Searched, h.parentScope?, h.currentScope]

/-- A name that was found in a scope is found there again. -/
theorem findScope_eq_some (hglobal : ¬s.IsScope s.global) {name : String}
    (hname : s.Unhidden name s') {n : Nat} {o scope : ObjectId} (ho : s.Searched o) {i : SlotId}
    (hfound : s.findScope name n o = some (scope, i)) :
    s'.findScope name n o = some (scope, i) := by
  induction n generalizing o with
  | zero => cases hfound
  | succ n ih =>
    unfold findScope at hfound ⊢
    cases hown : s.own? o name with
    | some j =>
      rw [hown] at hfound
      rw [h.own o name j hown]
      exact hfound
    | none =>
      rw [hown] at hfound
      dsimp only at hfound
      cases hparent : (s.object o).parentScope? with
      | none =>
        rw [hparent] at hfound
        cases hfound
      | some parent =>
        rw [hparent] at hfound
        have hne : o ≠ s.global := by
          rintro rfl
          exact hglobal (isScope_of_parentScope? hparent)
        rw [hname o ho hne, hown, h.parentScope?, hparent]
        exact ih (ho.tail hparent) hfound

/-- A name that was found in no scope is found in the global object, if at all. -/
theorem findScope_of_none (hglobal : ¬s.IsScope s.global) {name : String}
    (hname : s.Unhidden name s') {i : SlotId} (hown : s'.own? s'.global name = some i) {n : Nat}
    {o : ObjectId} (hscoped : s.Scoped o) (ho : s.Searched o) (hnone : s.findScope name n o = none) :
    s'.findScope name n o = none ∨ s'.findScope name n o = some (s'.global, i) := by
  induction hscoped generalizing n with
  | global =>
    cases n with
    | zero => exact .inl rfl
    | succ n =>
      right
      unfold findScope
      rw [← h.global, hown]
  | @scope o hscope _ ih =>
    cases n with
    | zero => exact .inl rfl
    | succ n =>
      have hne : o ≠ s.global := by
        rintro rfl
        exact hglobal hscope
      unfold findScope at hnone ⊢
      rw [hname o ho hne, h.parentScope?]
      cases hmember : s.own? o name with
      | some j =>
        rw [hmember] at hnone
        cases hnone
      | none =>
        rw [hmember] at hnone
        dsimp only at hnone ⊢
        cases hparent : (s.object o).parentScope? with
        | none => exact .inl rfl
        | some parent =>
          rw [hparent] at hnone
          exact ih parent hparent (ho.tail hparent) hnone

end Extends

namespace Unhidden

variable {s'' : State} {name : String}

theorem refl (s : State) (name : String) : s.Unhidden name s := fun _ _ _ => rfl

theorem trans (hname : s.Unhidden name s') (hname' : s'.Unhidden name s'') (h : s.Extends s') :
    s.Unhidden name s'' := by
  intro o ho hne
  rw [hname' o (h.searched_iff.2 ho) (h.global ▸ hne), hname o ho hne]

/-- A name that is added stays, so it was not added in between. -/
theorem split (hname : s.Unhidden name s'') (h : s.Extends s') (h' : s'.Extends s'') :
    s.Unhidden name s' ∧ s'.Unhidden name s'' := by
  have hfirst : s.Unhidden name s' := by
    intro o ho hne
    have hend := hname o ho hne
    cases hown : s.own? o name with
    | some i => exact h.own o name i hown
    | none =>
      rw [hown] at hend
      cases hmiddle : s'.own? o name with
      | some i =>
        rw [h'.own o name i hmiddle] at hend
        cases hend
      | none => rfl
  refine ⟨hfirst, fun o ho hne => ?_⟩
  rw [h.searched_iff] at ho
  rw [h.global] at hne
  rw [hname o ho hne, hfirst o ho hne]

end Unhidden

end State

namespace Eval

open State

variable {s : State} {o : ObjectId}

/-- Where the lives are settled, nothing happens. -/
theorem settleObject_of_settledAt (hs : s.Closed) (ho : s.Has (.object o)) (h : s.SettledAt o) :
    settleObject o s = .ok () s := by
  rw [settleObject_eq, (hs.hold (List.forall_mem_singleton.2 ho)).settleObject_eq h]
  rfl

/-! Lookups. -/

/-- A lookup that is made again in a later state leads to the same and changes nothing, unless the name
with which it begins is hidden. -/
def Lasts {α : Type} (root : String) (m : Eval α) (a : α) (s : State) : Prop :=
  ∀ s', s'.Closed → s.Extends s' → s.Unhidden root s' → m s' = .ok a s'

variable {name : String} {r : Reference} {s₁ : State}

/-- A member that is not virtual is found again. -/
theorem memberOf_again {s' : State} (hs' : s'.Closed) (h : s.Extends s') (ho : s.Has (.object o))
    (hsettled : s.SettledAt o) (hmethod : s.objectMethod? o name = none) {i : SlotId}
    (hown : s'.own? o name = some i) : memberOf o name s' = .ok ⟨i, some o, some name⟩ s' := by
  have hsettle := settleObject_of_settledAt hs' (h.has_object ho) (hsettled.extend h)
  unfold memberOf
  rw [bind_of_ok hsettle, update, member_of_own (h.objectMethod?_eq_none hmethod) hown]

/-- If a member is not virtual, the object has it then, and the state is only extended. -/
theorem member_of_not_virtual (hs : s.Closed) (ho : s.Has (.object o))
    (hplain : ¬(s.member o name).2.Virtual (s.member o name).1) :
    s.objectMethod? o name = none ∧ s.Extends (s.member o name).2 ∧
      (s.member o name).1 = ⟨(s.member o name).1.slot, some o, some name⟩ ∧
      (s.member o name).2.own? o name = some (s.member o name).1.slot := by
  cases hmethod : s.objectMethod? o name with
  | some f =>
    rw [member_of_method hmethod] at hplain
    have hlater := s.objectMethod?_congr (s.addSlot ⟨.object f, true, some name⟩).2 (o := o) rfl rfl name
    refine absurd ⟨o, name, f, rfl, rfl, hlater.trans hmethod, ?_, ?_⟩ hplain
    · rw [slot_addSlot, if_pos rfl]
    · intro hown
      exact absurd (hs.has_own hown) (Nat.lt_irrefl _)
  | none =>
    refine ⟨rfl, ?_⟩
    cases hown : s.own? o name with
    | some i =>
      rw [member_of_own hmethod hown]
      exact ⟨.refl s, rfl, hown⟩
    | none =>
      rw [member_of_absent hmethod hown]
      refine ⟨extends_allocate hown _ _, rfl, ?_⟩
      change ((s.addSlot _).2.bindMember o name _).own? o name = _
      rw [own?_bindMember, if_pos ⟨rfl, ho, rfl⟩]

theorem memberOf_lasts (hs : s.Closed) (ho : s.Has (.object o))
    (hrun : memberOf o name s = .ok r s₁) (hplain : ¬s₁.Virtual r) (root : String) :
    s.Extends s₁ ∧ Lasts root (memberOf o name) r s₁ := by
  obtain ⟨s', hsettle, hsettles, hsettled, -⟩ := settleObject_settled hs ho
  have ho' := hsettles.extends.has_object ho
  unfold memberOf at hrun
  rw [bind_of_ok hsettle] at hrun
  obtain ⟨rfl, rfl⟩ : (s'.member o name).1 = r ∧ (s'.member o name).2 = s₁ := Outcome.ok.inj hrun
  obtain ⟨hmethod, hextends, hr, hown⟩ :=
    member_of_not_virtual (hs.settles hsettles) ho' hplain
  refine ⟨hsettles.extends.trans hextends, ?_⟩
  intro s₂ hs₂ h _
  rw [hr]
  exact memberOf_again hs₂ (hextends.trans h) ho' hsettled hmethod (h.own o name _ hown)

theorem resolve_again {s' : State} (hs' : s'.Closed) (h : s.Extends s')
    (hsettled : s.SettledAt s.global) {found : Reference} (hfound : s'.resolve name = (found, s')) :
    resolve name s' = .ok found s' := by
  have hsettled' := hsettled.extend h
  rw [← h.global] at hsettled'
  have hsettle := settleObject_of_settledAt hs' hs'.global hsettled'
  unfold resolve
  rw [look_bind, bind_of_ok hsettle, update, hfound]

theorem resolve_lasts (hs : s.Sound) (hrun : resolve name s = .ok r s₁) (hplain : ¬s₁.Virtual r) :
    s.Extends s₁ ∧ (s.Unhidden name s₁ → Lasts name (resolve name) r s₁) := by
  obtain ⟨s', hsettle, hsettles, hsettled, -⟩ := settleObject_settled hs.closed hs.closed.global
  have hs' := hs.settles hsettles
  have hglobal : s'.global = s.global := hsettles.extends.global
  rw [← hglobal] at hsettled
  unfold resolve at hrun
  rw [look_bind, bind_of_ok hsettle] at hrun
  obtain ⟨rfl, rfl⟩ : (s'.resolve name).1 = r ∧ (s'.resolve name).2 = s₁ := Outcome.ok.inj hrun
  cases hfound : s'.findScope name (s'.objects.size + 1) s'.currentScope with
  | some p =>
    obtain ⟨scope, i⟩ := p
    simp only [State.resolve, hfound]
    refine ⟨hsettles.extends, ?_⟩
    intro _ s₂ hs₂ h hname₂
    apply resolve_again hs₂ h hsettled
    have hagain := h.findScope_eq_some hs'.framed.global hname₂ .refl hfound
    simp only [State.resolve, h.objects, h.currentScope, hagain, h.global]
  | none =>
    have hmember : s'.resolve name = s'.member s'.global name := by
      simp only [State.resolve, hfound]
    rw [hmember] at hplain ⊢
    obtain ⟨hmethod, hextends, hr, hown⟩ :=
      member_of_not_virtual hs'.closed hs'.closed.global hplain
    refine ⟨hsettles.extends.trans hextends, ?_⟩
    intro hname s₂ hs₂ h hname₂
    have hlater := hextends.trans h
    have hunhidden := (hname.split hsettles.extends hextends).2.trans hname₂ hextends
    apply resolve_again hs₂ hlater hsettled
    have hown₂ : s₂.own? s₂.global name = some (s'.member s'.global name).1.slot := by
      rw [hlater.global]
      exact h.own _ name _ hown
    have hmethod₂ : s₂.objectMethod? s₂.global name = none := by
      rw [hlater.global]
      exact hlater.objectMethod?_eq_none hmethod
    unfold State.resolve
    rw [hlater.objects, hlater.currentScope, hr]
    rcases hlater.findScope_of_none hs'.framed.global hunhidden hown₂ hs'.framed.currentScope .refl hfound
      with hnone | hsome
    · rw [hnone]
      dsimp only
      rw [member_of_own hmethod₂ hown₂, hlater.global]
    · rw [hsome]
      dsimp only
      rw [if_pos rfl, hlater.global]

/-! Paths. -/

/-- No access of a path is made on a virtual member. -/
def AvoidsVirtual (s : State) (x : Expr) : Prop :=
  ∀ y name, x.Access y name → ∀ n r s₁, evaluate n y s = .ok (.reference r) s₁ → ¬s₁.Virtual r

/-- The evaluation of a path adds the name with which the path begins to no scope in which that name is
looked up. -/
def KeepsRoot (s : State) (x : Expr) : Prop :=
  ∀ n r s₁, evaluate n x s = .ok (.reference r) s₁ → s.Unhidden x.root s₁

/-- What an expression gives exists. -/
theorem sound_evaluate (hs : s.Sound) {n : Nat} {e : Expr} {v : Value}
    (h : evaluate n e s = .ok v s₁) : s₁.Sound ∧ s₁.HasValue v := by
  have L := Discipline.sound_lawful s
  have I := L.interprets (Discipline.sound_hosts s) n
  obtain ⟨hinv, -, hv⟩ := Discipline.Keeps.of_ok (I.evaluate trivial hs.inv_self) h
  exact ⟨hinv.1, hv⟩

theorem resolve_of_evaluate {n : Nat} {span : Span}
    (h : evaluate n (.identifier span name) s = .ok (.reference r) s₁) : resolve name s = .ok r s₁ := by
  cases n with
  | zero => cases h
  | succ n =>
    rw [evaluate_identifier] at h
    obtain ⟨r', s', hresolve, hrest⟩ := exists_of_bind_ok h
    cases hrest
    exact hresolve

/-- An access leads from an object to a member of it. -/
theorem exists_of_evaluate_member {n : Nat} {span : Span} {object : Expr} (hobject : object.IsPath)
    (h : evaluate (n + 1) (.member span object name) s = .ok (.reference r) s₁) :
    ∃ r' s' o, evaluate n object s = .ok (.reference r') s' ∧ s'.deref (.reference r') = .object o ∧
      memberOf o name s' = .ok r s₁ := by
  rw [evaluate_member] at h
  obtain ⟨v, s', hfirst, hsecond⟩ := exists_of_bind_ok h
  obtain ⟨r', rfl, -⟩ : ∃ r', v = .reference r' ∧ s.Leads (r', s') := by
    have hend := evaluate_path hobject n s
    rwa [hfirst] at hend
  obtain ⟨o, s'', hobject, hthird⟩ := exists_of_bind_ok hsecond
  obtain ⟨hbehind, hsame⟩ := toObject_ok hobject
  rw [hsame] at hthird
  obtain ⟨r'', s'', hmember, hrest⟩ := exists_of_bind_ok hthird
  cases hrest
  exact ⟨r', s', o, hfirst, hbehind, hmember⟩

/-- A path adds a name to an object only by an access that is made on the object by that name. An
identifier is added to the global object at most. -/
theorem own?_evaluate_path {x : Expr} (hx : x.IsPath) {n : Nat} {o : ObjectId} (ho : o ≠ s.global)
    (haccess : ∀ y, x.Access y name → ∀ n r s₁, evaluate n y s = .ok (.reference r) s₁ →
      s₁.deref (.reference r) ≠ .object o)
    (hrun : evaluate n x s = .ok (.reference r) s₁) : s₁.own? o name = s.own? o name := by
  have hsettled {o' : ObjectId} {s s' : State} (h : settleObject o' s = .ok () s') :
      s'.own? o name = s.own? o name ∧ s'.global = s.global := by
    obtain ⟨s'', hsettle, hsettles⟩ := settleObject_ok o' s
    obtain rfl : s'' = s' := (Outcome.ok.inj (hsettle.symm.trans h)).2
    obtain ⟨_, _, rfl⟩ := hsettles.same
    exact ⟨rfl, rfl⟩
  induction hx generalizing n r s₁ with
  | identifier span name' =>
    have hresolve := resolve_of_evaluate hrun
    unfold resolve at hresolve
    rw [look_bind] at hresolve
    obtain ⟨_, s', hsettle, hend⟩ := exists_of_bind_ok hresolve
    obtain ⟨hown, hglobal⟩ := hsettled hsettle
    obtain ⟨-, rfl⟩ : (s'.resolve name').1 = r ∧ (s'.resolve name').2 = s₁ := Outcome.ok.inj hend
    rw [← hown, State.resolve]
    split
    · rfl
    · exact own?_member fun hsame => absurd (hsame.trans hglobal) ho
  | @member span object name' hobject ih =>
    cases n with
    | zero => cases hrun
    | succ n =>
      obtain ⟨r', s', o', hfirst, hbehind, hmember⟩ := exists_of_evaluate_member hobject hrun
      unfold memberOf at hmember
      obtain ⟨_, s'', hsettle, hend⟩ := exists_of_bind_ok hmember
      obtain ⟨-, rfl⟩ : (s''.member o' name').1 = r ∧ (s''.member o' name').2 = s₁ :=
        Outcome.ok.inj hend
      rw [← ih (fun y hy => haccess y (.earlier span name' hy)) hfirst, ← (hsettled hsettle).1]
      apply own?_member
      rintro rfl rfl
      exact haccess object (.last span object name) n r' s' hfirst hbehind

/-- A path that has led to a slot leads there again. -/
theorem path_lasts {x : Expr} (hx : x.IsPath) {n : Nat} (hs : s.Sound) (havoids : AvoidsVirtual s x)
    (hrun : evaluate n x s = .ok (.reference r) s₁) (hlast : ¬s₁.Virtual r) :
    s.Extends s₁ ∧ (s.Unhidden x.root s₁ → Lasts x.root (evaluate n x) (.reference r) s₁) := by
  induction hx generalizing n r s₁ with
  | identifier span name =>
    cases n with
    | zero => cases hrun
    | succ n =>
      obtain ⟨hextends, hlasts⟩ := resolve_lasts hs (resolve_of_evaluate hrun) hlast
      refine ⟨hextends, ?_⟩
      intro hroot s₂ hs₂ h hname
      rw [evaluate_identifier, bind_of_ok (hlasts hroot s₂ hs₂ h hname)]
      rfl
  | @member span object name hobject ih =>
    cases n with
    | zero => cases hrun
    | succ n =>
      obtain ⟨r', s', o, hfirst, hbehind, hmember⟩ := exists_of_evaluate_member hobject hrun
      obtain ⟨hs', hvalue⟩ := sound_evaluate hs hfirst
      have ho : s'.Has (.object o) := by
        have hbehind' := hs'.closed.hasValue_deref hvalue
        rw [hbehind] at hbehind'
        exact hasValue_object.1 hbehind'
      obtain ⟨hextends', hlasts'⟩ := memberOf_lasts hs'.closed ho hmember hlast object.root
      obtain ⟨hextends, hlasts⟩ := ih (fun y name' hy => havoids y name' (.earlier span name hy)) hfirst
        (havoids object name (.last span object name) n r' s' hfirst)
      refine ⟨hextends.trans hextends', ?_⟩
      intro hroot s₂ hs₂ h hname
      obtain ⟨hfirstRoot, hlastRoot⟩ := Unhidden.split hroot hextends hextends'
      have hpath := hlasts hfirstRoot s₂ hs₂ (hextends'.trans h) (hlastRoot.trans hname hextends')
      have hagain : toObject (.reference r') s₂ = .ok o s₂ :=
        toObject_of_object ((hextends'.trans h).deref_eq_object hs'.closed hvalue hbehind)
      rw [evaluate_member, bind_of_ok hpath, bind_of_ok hagain, bind_of_ok (hlasts' s₂ hs₂ h hname)]
      rfl

end Eval

end Scripting
