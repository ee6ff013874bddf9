import Scripting.Proofs.Liveness.Settled
import Scripting.Proofs.Session

/-!
What an identifier stands for.

A scope is younger than the one around it, so the search along a chain of scopes ends, and what it finds
is the innermost scope with the name (`State.findScope_eq_some_iff`). Main statement: a name that is bound
nowhere becomes a member of the global object when it is first read, and stays this member however often
it is read afterwards (`identifiers_resolve`).
-/

namespace Scripting

namespace Table

variable {α : Type}

/-- A new name comes last. -/
theorem entries_insert_of_none {t : Table α} {name : String} (h : t.find? name = none) (value : α) :
    (t.insert name value).entries = t.entries ++ [(name, value)] := by
  unfold insert
  split
  · rename_i i hi
    obtain ⟨old, hold⟩ := (t.agrees name i).1 hi
    have hfound := (t.find?_eq_some_iff name old).2 ⟨i, hold⟩
    rw [h] at hfound
    cases hfound
  · simp [entries]

end Table

namespace State

/-- From a scope outwards, the first one that has a name of its own. -/
inductive Innermost (s : State) (name : String) : ObjectId → ObjectId → SlotId → Prop where
  | here {scope : ObjectId} {i : SlotId} (h : s.own? scope name = some i) :
      Innermost s name scope scope i
  | outside {scope parent owner : ObjectId} {i : SlotId} (hown : s.own? scope name = none)
      (hparent : (s.object scope).parentScope? = some parent)
      (h : Innermost s name parent owner i) : Innermost s name scope owner i

variable {s s' : State} {name : String} {i : SlotId}

theorem Innermost.own {scope owner : ObjectId} (h : s.Innermost name scope owner i) :
    s.own? owner name = some i := by
  induction h with
  | here h => exact h
  | outside _ _ _ ih => exact ih

theorem Innermost.congr (hobjects : s'.objects = s.objects) {scope owner : ObjectId}
    (h : s.Innermost name scope owner i) : s'.Innermost name scope owner i := by
  have hobject (o : ObjectId) : s'.object o = s.object o := by rw [object, object, hobjects]
  induction h with
  | here h => exact .here (by rwa [own?, hobject])
  | outside hown hparent _ ih => exact .outside (by rwa [own?, hobject]) (by rwa [hobject]) ih

/-- The search finds the innermost scope, within any bound above the number of the scope. -/
theorem findScope_eq_some_iff
    (hs : ∀ o parent, (s.object o).parentScope? = some parent → parent.index < o.index) {n : Nat}
    {scope owner : ObjectId} (hn : scope.index < n) :
    s.findScope name n scope = some (owner, i) ↔ s.Innermost name scope owner i := by
  constructor
  · clear hn
    intro h
    induction n generalizing scope with
    | zero => cases h
    | succ n ih =>
      unfold findScope at h
      split at h
      · rename_i hown
        cases h
        exact .here hown
      · rename_i hown
        split at h
        · rename_i hparent
          exact .outside hown hparent (ih h)
        · cases h
  · intro h
    induction h generalizing n with
    | here hown =>
      obtain ⟨n, rfl⟩ := Nat.exists_eq_succ_of_ne_zero (Nat.ne_of_gt (Nat.zero_lt_of_lt hn))
      rw [findScope, hown]
    | outside hown hparent _ ih =>
      obtain ⟨n, rfl⟩ := Nat.exists_eq_succ_of_ne_zero (Nat.ne_of_gt (Nat.zero_lt_of_lt hn))
      have hlt := hs _ _ hparent
      rw [findScope, hown, hparent]
      exact ih (by omega)

/-- What an identifier stands for where a scope of the chain has the name. -/
theorem Sound.resolve_of_innermost (hs : s.Sound) {owner : ObjectId}
    (h : s.Innermost name s.currentScope owner i) :
    s.resolve name = (⟨i, if owner = s.global then some s.global else none, some name⟩, s) := by
  have hbound : s.currentScope.index < s.objects.size + 1 :=
    Nat.lt_succ_of_lt hs.closed.has_currentScope
  rw [resolve, (findScope_eq_some_iff hs.nested hbound).2 h]

/-- A name that no scope of the chain has stands for a member of the global object. -/
theorem Sound.resolve_of_unbound (hs : s.Sound)
    (h : ∀ owner i, ¬s.Innermost name s.currentScope owner i) :
    s.resolve name = s.member s.global name := by
  have hbound : s.currentScope.index < s.objects.size + 1 :=
    Nat.lt_succ_of_lt hs.closed.has_currentScope
  rw [resolve]
  split
  · rename_i owner i hfound
    exact absurd ((findScope_eq_some_iff hs.nested hbound).1 hfound) (h owner i)
  · rfl

/-- One member is added, at the end of the global object's table. It is `undefined` and can be written.
Nothing else changes. -/
structure Vivifies (t : State) (name : String) (u : State) : Prop where
  entries : (u.object t.global).members.entries =
    (t.object t.global).members.entries ++ [(name, ⟨t.slots.size⟩)]
  slots : u.slots = t.slots.push ⟨.undefined, false, some name⟩
  global : u.object t.global = { t.object t.global with members := (u.object t.global).members }
  others : ∀ o, o ≠ t.global → u.object o = t.object o
  objects : u.objects.size = t.objects.size
  rest : u = { t with objects := u.objects, slots := u.slots }

theorem vivifies_allocate (hglobal : s.Has (.object s.global)) (hown : s.own? s.global name = none) :
    s.Vivifies name (s.allocate s.global name .undefined false).2 := by
  have hobject : (s.allocate s.global name .undefined false).2.object s.global =
      { s.object s.global with
        members := (s.object s.global).members.insert name ⟨s.slots.size⟩ } := by
    change ((s.addSlot _).2.bindMember s.global name _).object s.global = _
    rw [bindMember, object_modify, if_pos ⟨rfl, hglobal⟩]
    rfl
  constructor
  case entries =>
    rw [hobject]
    exact Table.entries_insert_of_none hown _
  case slots => rfl
  case global => rw [hobject]
  case others => exact fun o ho => s.object_allocate_of_ne ho _ _ _
  case objects => simp [allocate, addSlot, bindMember]
  case rest => rfl

/-! Reading a name again. -/

/-- The name is bound in no scope of the chain but the global object. -/
def Unbound (s : State) (name : String) : Prop :=
  ∀ owner i, s.Innermost name s.currentScope owner i → owner = s.global

/-- Scopes are entered and left, and the name is read where no local scope binds it. -/
inductive Rereads (name : String) (s : State) : State → Prop where
  | start : Rereads name s s
  | block {s' : State} (h : Rereads name s s') : Rereads name s s'.pushBlock
  | call {s' : State} (label : String) {this : Option ObjectId} (h : Rereads name s s')
      (hthis : ∀ o, this = some o → s'.Has (.object o)) : Rereads name s (s'.pushCall label this)
  | program {s' : State} (label : String) (h : Rereads name s s') :
      Rereads name s (s'.pushGlobal label)
  | leave {s' : State} (h : Rereads name s s') : Rereads name s s'.popFrame
  | read {s' s'' : State} {r : Reference} (h : Rereads name s s') (hunbound : s'.Unbound name)
      (hrun : Eval.resolve name s' = .ok r s'') : Rereads name s s''

/-- Objects are added, and the members of the others stay as they are. -/
structure KeepsMembers (s s' : State) : Prop where
  objects : s.objects.size ≤ s'.objects.size
  members : ∀ o, s.Has (.object o) → (s'.object o).members = (s.object o).members

theorem KeepsMembers.refl (s : State) : s.KeepsMembers s :=
  ⟨Nat.le_refl _, fun _ _ => rfl⟩

theorem KeepsMembers.trans {s'' : State} (h : s.KeepsMembers s') (h' : s'.KeepsMembers s'') :
    s.KeepsMembers s'' where
  objects := Nat.le_trans h.objects h'.objects
  members o ho := by rw [h'.members o (Nat.lt_of_lt_of_le ho h.objects), h.members o ho]

theorem Settles.objects_eq (h : s.Settles s') : s'.objects = s.objects := by
  obtain ⟨_, _, rfl⟩ := h.same
  rfl

theorem Settles.currentScope_eq (h : s.Settles s') : s'.currentScope = s.currentScope := by
  obtain ⟨_, _, rfl⟩ := h.same
  rfl

theorem Settles.keepsMembers (h : s.Settles s') : s.KeepsMembers s' where
  objects := Nat.le_of_eq (congrArg Array.size h.objects_eq.symm)
  members o _ := by rw [object, object, h.objects_eq]

/-- A name stands for an own member of the global object, and for no virtual one. -/
structure OwnGlobal (s : State) (name : String) (i : SlotId) : Prop where
  own : s.own? s.global name = some i
  virtual : s.objectMethod? s.global name = none

theorem ownGlobal_allocate (hglobal : s.Has (.object s.global))
    (hvirtual : s.objectMethod? s.global name = none) (v : Value) (readOnly : Bool) :
    (s.allocate s.global name v readOnly).2.OwnGlobal name ⟨s.slots.size⟩ := by
  constructor
  · change ((s.addSlot _).2.bindMember s.global name _).own? s.global name = _
    rw [own?_bindMember, if_pos ⟨rfl, hglobal, rfl⟩]
  · have hclass := s.classId_allocate s.global s.global name v readOnly
    exact (objectMethod?_congr s (s.allocate s.global name v readOnly).2 rfl hclass name).trans hvirtual

theorem OwnGlobal.settle (h : s.OwnGlobal name i) (hsettles : s.Settles s') :
    s'.OwnGlobal name i := by
  have hglobal : s'.global = s.global := hsettles.extends.global
  constructor
  · rw [hglobal]
    exact hsettles.extends.own _ name i h.own
  · rw [hglobal]
    exact hsettles.extends.objectMethod?_eq_none h.virtual

/-- Frames come and go, and objects are added. -/
structure Restacks (s s' : State) : Prop where
  classes : s'.classes = s.classes
  global : s'.global = s.global
  size : s.objects.size ≤ s'.objects.size
  objects : ∀ o, s.Has (.object o) → s'.object o = s.object o

theorem Restacks.keepsMembers (h : s.Restacks s') : s.KeepsMembers s' :=
  ⟨h.size, fun o ho => congrArg Object.members (h.objects o ho)⟩

theorem Restacks.keepsGlobal (h : s.Restacks s') (hs : s.Sound) (hname : s.OwnGlobal name i) :
    s'.OwnGlobal name i := by
  have hglobal := h.objects s.global hs.closed.global
  constructor
  · rw [h.global, own?, hglobal]
    exact hname.own
  · rw [h.global, objectMethod?_congr s s' h.classes (congrArg Object.classId hglobal)]
    exact hname.virtual

theorem restacks_push (s : State) (object : Object) (frames : List Frame) :
    s.Restacks { (s.addObject object).2 with frames := frames } where
  classes := rfl
  global := rfl
  size := by simp [addObject]
  objects o ho := (s.object_addObject object o).trans (if_neg (Nat.ne_of_lt ho))

theorem restacks_frames (s : State) (frames : List Frame) :
    s.Restacks { s with frames := frames } :=
  ⟨rfl, rfl, Nat.le_refl _, fun _ _ => rfl⟩

/-- What holds while a name that stands for an own member of the global object is read again. -/
structure StillGlobal (s : State) (name : String) (i : SlotId) (s' : State) : Prop where
  sound : s'.Sound
  name : s'.OwnGlobal name i
  global : s'.global = s.global
  members : s.KeepsMembers s'

theorem StillGlobal.restack {s'' : State} (h : s.StillGlobal name i s') (hstack : s'.Restacks s'')
    (hsound : s''.Sound) : s.StillGlobal name i s'' :=
  ⟨hsound, hstack.keepsGlobal h.sound h.name, hstack.global.trans h.global,
    h.members.trans hstack.keepsMembers⟩

theorem StillGlobal.settle {s'' : State} (h : s.StillGlobal name i s') (hsettles : s'.Settles s'') :
    s.StillGlobal name i s'' where
  sound := h.sound.settles hsettles
  name := h.name.settle hsettles
  global := hsettles.extends.global.trans h.global
  members := h.members.trans hsettles.keepsMembers

/-- What is held already may be held once more. -/
theorem Rooted.of_hold {nodes : List Node} (hnodes : ∀ node ∈ nodes, s.Rooted node) {node : Node}
    (h : (s.hold nodes).Rooted node) : s.Rooted node := by
  induction h with
  | root hroot =>
    simp only [roots, hold, List.mem_append, List.mem_filter] at hroot
    rcases hroot with (((hnew | hheld) | hframe) | hglobal) | hkept
    · exact hnodes _ hnew.1
    · exact .root (by simp [roots, hheld])
    · exact .root (by simp only [roots, List.mem_append]; exact .inl (.inl (.inr hframe)))
    · exact .root (by simp only [roots, List.mem_append]; exact .inl (.inr hglobal))
    · exact .root (by simp only [roots, List.mem_append]; exact .inr hkept)
  | link _ hchild ih => exact .link ih hchild

end State

namespace Eval

open State

variable {s : State} {name : String} {i : SlotId}

/-- An identifier is looked up when it is settled which classes of the global object are alive. -/
theorem resolve_settled (hs : s.Sound) (name : String) :
    ∃ t, s.Settles t ∧ (∀ own, (t.object t.global).classId = some own → t.Settled own) ∧
      Eval.resolve name s = .ok (t.resolve name).1 (t.resolve name).2 := by
  obtain ⟨t, hrun, hsettles, hsettled, -⟩ := settleObject_settled hs.closed hs.closed.global
  have hglobal : t.global = s.global := hsettles.extends.global
  refine ⟨t, hsettles, ?_, ?_⟩
  · intro own hown c hbase hmortal
    rw [hglobal] at hown
    have hclasses : (t.hold [.object s.global]).classes = t.classes := rfl
    have hheld := lineage_congr hclasses own
    have hroot : t.Rooted (.object s.global) := .root (by simp [roots, hglobal])
    apply Rooted.of_hold (List.forall_mem_singleton.2 hroot)
    exact hsettled own hown c (hheld ▸ hbase) hmortal
  · unfold Eval.resolve
    rw [look_bind, bind_of_ok hrun]
    rfl

theorem resolve_of_global (hs : s.Sound) (hname : s.OwnGlobal name i) (hunbound : s.Unbound name) :
    ∃ t, Eval.resolve name s = .ok ⟨i, some s.global, some name⟩ t ∧ s.Settles t := by
  obtain ⟨t, hsettles, -, hrun⟩ := resolve_settled hs name
  have ht := hs.settles hsettles
  have hglobal : t.global = s.global := hsettles.extends.global
  obtain ⟨hown, hvirtual⟩ := hname.settle hsettles
  have hresolve : t.resolve name = (⟨i, some s.global, some name⟩, t) := by
    by_cases hbound : ∃ owner j, t.Innermost name t.currentScope owner j
    · obtain ⟨owner, j, hinnermost⟩ := hbound
      have howner : owner = s.global := by
        apply hunbound owner j
        rw [← hsettles.currentScope_eq]
        exact hinnermost.congr hsettles.objects_eq.symm
      obtain rfl : j = i := by
        have hj := hinnermost.own
        rw [howner, ← hglobal, hown] at hj
        exact (Option.some.inj hj).symm
      rw [ht.resolve_of_innermost hinnermost, howner, ← hglobal, if_pos rfl]
    · rw [ht.resolve_of_unbound fun owner j h => hbound ⟨owner, j, h⟩, member_of_own hvirtual hown,
        hglobal]
  rw [hresolve] at hrun
  exact ⟨t, hrun, hsettles⟩

/-- However often the name is read, and whatever scopes are entered, it is still the same member of the
global object. -/
theorem stillGlobal_of_rereads {s' : State} (hs : s.Sound) (hname : s.OwnGlobal name i)
    (h : s.Rereads name s') : s.StillGlobal name i s' := by
  induction h with
  | start => exact ⟨hs, hname, rfl, .refl s⟩
  | block _ ih => exact ih.restack (restacks_push _ _ _) ih.sound.pushBlock.1
  | call label _ hthis ih => exact ih.restack (restacks_push _ _ _) (ih.sound.pushCall label hthis).1
  | program label _ ih => exact ih.restack (restacks_frames _ _) (ih.sound.pushGlobal label).1
  | leave _ ih => exact ih.restack (restacks_frames _ _) ih.sound.popFrame.1
  | read _ hunbound hrun ih =>
    obtain ⟨t, hread, hsettles⟩ := resolve_of_global ih.sound ih.name hunbound
    rw [hrun] at hread
    cases hread
    exact ih.settle hsettles

/-- Every further read leads to the same slot and changes no member table. -/
theorem resolve_of_rereads (hs : s.Sound) (hname : s.OwnGlobal name i) {s' : State}
    (h : s.Rereads name s') (hunbound : s'.Unbound name) :
    ∃ s'', Eval.resolve name s' = .ok ⟨i, some s.global, some name⟩ s'' ∧
      (∀ o, (s''.object o).members = (s'.object o).members) ∧ s.KeepsMembers s'' := by
  have hstill := stillGlobal_of_rereads hs hname h
  obtain ⟨t, hread, hsettles⟩ := resolve_of_global hstill.sound hstill.name hunbound
  rw [hstill.global] at hread
  refine ⟨t, hread, fun o => ?_, (hstill.settle hsettles).members⟩
  rw [object, object, hsettles.objects_eq]

end Eval

open Eval Host State in
/-- What an identifier stands for, in every state that a host can bring about: the slot of the innermost
scope with the name, or else a virtual member of the global object, or else an own one, which is created
if it does not exist. Reading the name again then leads to the same own member. -/
theorem identifiers_resolve {session : Session} {s : State}
    (hreached : session.Reached fun _ => True) (hvisits : session.Visits s) (name : String) :
    ∃ t, s.Settles t ∧ (∀ own, (t.object t.global).classId = some own → t.Settled own) ∧
      (∀ owner i, s.Innermost name s.currentScope owner i →
        Eval.resolve name s =
          .ok ⟨i, if owner = s.global then some s.global else none, some name⟩ t) ∧
      ((∀ owner i, ¬s.Innermost name s.currentScope owner i) →
        (∀ f, t.objectMethod? s.global name = some f →
          Eval.resolve name s = .ok ⟨⟨t.slots.size⟩, some s.global, some name⟩
            (t.addSlot ⟨.object f, true, some name⟩).2) ∧
        (t.objectMethod? s.global name = none →
          ∃ i u, Eval.resolve name s = .ok ⟨i, some s.global, some name⟩ u ∧
            (t.own? s.global name = some i ∧ u = t ∨
              t.own? s.global name = none ∧ i = ⟨t.slots.size⟩ ∧ t.Vivifies name u) ∧
            ∀ s', u.Rereads name s' → s'.Unbound name →
              ∃ s'', Eval.resolve name s' = .ok ⟨i, some s.global, some name⟩ s'' ∧
                (∀ o, (s''.object o).members = (s'.object o).members) ∧ u.KeepsMembers s'')) := by
  obtain ⟨hs, -⟩ := hreached.sound.visits hvisits
  obtain ⟨t, hsettles, hsettled, hrun⟩ := resolve_settled hs name
  have ht := hs.settles hsettles
  have hglobal : t.global = s.global := hsettles.extends.global
  have hscope := hsettles.currentScope_eq
  refine ⟨t, hsettles, hsettled, ?_, ?_⟩
  · intro owner i hinnermost
    have hinner : t.Innermost name t.currentScope owner i := by
      rw [hscope]
      exact hinnermost.congr hsettles.objects_eq
    rw [hrun, ht.resolve_of_innermost hinner, hglobal]
  · intro hnone
    have hmember : t.resolve name = t.member t.global name := by
      apply ht.resolve_of_unbound
      intro owner i hinner
      rw [hscope] at hinner
      exact hnone owner i (hinner.congr hsettles.objects_eq.symm)
    rw [hmember] at hrun
    rw [← hglobal]
    refine ⟨?_, ?_⟩
    · intro f hf
      rw [hrun, member_of_method hf]
    · intro hvirtual
      cases hown : t.own? t.global name with
      | some i =>
        rw [member_of_own hvirtual hown] at hrun
        refine ⟨i, t, hrun, .inl ⟨rfl, rfl⟩, ?_⟩
        exact fun s' h => resolve_of_rereads ht ⟨hown, hvirtual⟩ h
      | none =>
        rw [member_of_absent hvirtual hown] at hrun
        have hvivifies := vivifies_allocate ht.closed.global hown
        refine ⟨⟨t.slots.size⟩, _, hrun, .inr ⟨rfl, rfl, hvivifies⟩, ?_⟩
        have hu : (t.allocate t.global name .undefined false).2.Sound :=
          ht.allocate (hasValue_of_nodes rfl) _ name false
        have hname := ownGlobal_allocate ht.closed.global hvirtual .undefined false
        exact fun s' h => resolve_of_rereads hu hname h

open Eval Host State in
/-- A new name is read at top level and then inside a function. -/
theorem identifiers_resolve_fresh :
    let s := (Session.start none none default).ready
    ∃ i u, Eval.resolve "x" s = .ok ⟨i, some ⟨0⟩, some "x"⟩ u ∧
      ∃ s', Eval.resolve "x" (u.pushCall "f" none) = .ok ⟨i, some ⟨0⟩, some "x"⟩ s' := by
  intro s
  have hreached : (Session.start none none default).Reached fun _ => True :=
    ⟨none, none, default, .refl⟩
  have hs : s.Sound := hreached.sound.ready.1
  have hnone : ∀ owner i, ¬s.Innermost "x" s.currentScope owner i := by
    intro owner i hinnermost
    have hbound : s.currentScope.index < s.objects.size + 1 := by decide +kernel
    have hfound := (findScope_eq_some_iff hs.nested hbound).2 hinnermost
    have hempty : s.findScope "x" (s.objects.size + 1) s.currentScope = none := by decide +kernel
    rw [hempty] at hfound
    cases hfound
  have hvirtual : s.objectMethod? s.global "x" = none := by decide +kernel
  obtain ⟨t, hsettles, -, -, hresolve⟩ := identifiers_resolve hreached .ready "x"
  obtain ⟨i, u, hrun, -, hagain⟩ :=
    (hresolve hnone).2 (hsettles.extends.objectMethod?_eq_none hvirtual)
  refine ⟨i, u, hrun, ?_⟩
  have hscope : (u.pushCall "f" none).object ⟨u.objects.size⟩ = { payload := .scope none } :=
    (u.object_addObject _ _).trans (if_pos rfl)
  have hunbound : (u.pushCall "f" none).Unbound "x" := by
    intro owner j hinnermost
    change (u.pushCall "f" none).Innermost "x" ⟨u.objects.size⟩ owner j at hinnermost
    cases hinnermost with
    | here h =>
      rw [own?, hscope] at h
      cases h
    | outside _ hparent _ =>
      rw [hscope] at hparent
      cases hparent
  have hcalled : u.Rereads "x" (u.pushCall "f" none) := .call "f" .start fun _ h => by cases h
  obtain ⟨s', hrun', -⟩ := hagain _ hcalled hunbound
  exact ⟨s', hrun'⟩

end Scripting
