import Mathlib.Logic.Relation
import Scripting.Proofs.Discipline.Restriction
import Scripting.Proofs.Isolation.Sealed

/-!
Tables of members only grow.

A name that is bound again keeps its place in the table of its object, and a new one comes last. Main
statement: without functions of the host, running code keeps class, payload and the order of the members
of every object (`members_only_grow`).
-/

namespace Scripting

namespace State

/-- Own members have different names, and the slot of each one says its name. -/
structure WellNamed (s : State) : Prop where
  nodup : ∀ o, (s.object o).members.names.Nodup
  named : ∀ o name i, (name, i) ∈ (s.object o).members.entries → (s.slot i).name = some name

/-- No function of the host is installed. -/
def BuiltinOnly (s : State) : Prop :=
  ∀ o f h, (s.object o).callable? = some (.native f) → f.callback ≠ .host h

/-- Objects keep their class and their payload, and the names of their members, in order and in front of
new ones. -/
structure MembersGrow (s s' : State) : Prop extends s.Grows s' where
  classId : ∀ o, o.index < s.objects.size → (s'.object o).classId = (s.object o).classId
  names : ∀ o, o.index < s.objects.size →
    (s.object o).members.names <+: (s'.object o).members.names

variable {s s' : State}

namespace MembersGrow

theorem of_objects (h : s'.objects = s.objects) : s.MembersGrow s' where
  toGrows := grows_of_objects h
  classId o _ := by rw [object, object, h]
  names o _ := by simp only [object, h, List.prefix_rfl]

theorem refl (s : State) : s.MembersGrow s :=
  of_objects rfl

theorem trans {s'' : State} (h : s.MembersGrow s') (h' : s'.MembersGrow s'') :
    s.MembersGrow s'' where
  toGrows := h.toGrows.trans h'.toGrows
  classId o ho := by
    rw [h'.classId o (Nat.lt_of_lt_of_le ho h.size), h.classId o ho]
  names o ho := (h.names o ho).trans (h'.names o (Nat.lt_of_lt_of_le ho h.size))

end MembersGrow

theorem membersGrow_addObject (s : State) (object : Object) :
    s.MembersGrow (s.addObject object).2 := by
  have hold : ∀ o : ObjectId, o.index < s.objects.size →
      (s.addObject object).2.object o = s.object o := by
    intro o ho
    rw [object_addObject, if_neg (Nat.ne_of_lt ho)]
  exact ⟨grows_addObject s object, fun o ho => by rw [hold o ho],
    fun o ho => by simp only [hold o ho, List.prefix_rfl]⟩

/-- A name that is bound again keeps its place, a new one comes last. -/
theorem membersGrow_bindMember (s : State) (o : ObjectId) (name : String) (i : SlotId) :
    s.MembersGrow (s.bindMember o name i) where
  size := by simp [bindMember]
  payload o' _ := payload_bindMember s o o' name i
  classId o' _ := classId_bindMember s o o' name i
  names o' _ := by
    rw [bindMember, object_modify]
    split
    · dsimp only
      rw [Table.names_insert]
      split
      · exact List.prefix_rfl
      · exact List.prefix_append _ _
    · exact List.prefix_rfl

theorem membersGrow_allocate (s : State) (o : ObjectId) (name : String) (v : Value)
    (readOnly : Bool) : s.MembersGrow (s.allocate o name v readOnly).2 :=
  (MembersGrow.of_objects rfl : s.MembersGrow (s.addSlot ⟨v, readOnly, some name⟩).2).trans
    (membersGrow_bindMember _ o name _)

namespace WellNamed

theorem of_own? (h : ∀ o name i, s.own? o name = some i → (s.slot i).name = some name) :
    s.WellNamed :=
  ⟨fun _ => Table.nodup_names _, fun o name i hi => h o name i ((Table.mem_entries_iff _ _ _).1 hi)⟩

variable (hs : s.WellNamed)
include hs

theorem own? {o : ObjectId} {name : String} {i : SlotId} (h : s.own? o name = some i) :
    (s.slot i).name = some name :=
  hs.named o name i ((Table.mem_entries_iff _ _ _).2 h)

/-- The slot of a member exists. -/
theorem lt_size {o : ObjectId} {name : String} {i : SlotId} (h : s.own? o name = some i) :
    i.index < s.slots.size := by
  apply Nat.lt_of_not_le
  intro hle
  have hname := hs.own? h
  rw [slot_of_size_le s hle] at hname
  cases hname

theorem of_heap (hobjects : s'.objects = s.objects) (hslots : s'.slots = s.slots) :
    s'.WellNamed := by
  refine of_own? fun o name i h => ?_
  rw [slot, hslots]
  rw [State.own?, object, hobjects] at h
  exact hs.own? h

theorem addObject {object : Object} (h : ∀ name, object.members.find? name = none) :
    (s.addObject object).2.WellNamed := by
  refine of_own? fun o name i hi => ?_
  rw [State.own?, object_addObject] at hi
  split at hi
  · rw [h] at hi
    cases hi
  · exact hs.own? hi

theorem addSlot (slot : Slot) : (s.addSlot slot).2.WellNamed := by
  refine of_own? fun o name i hi => ?_
  have hi : s.own? o name = some i := hi
  rw [slot_addSlot, if_neg (Nat.ne_of_lt (hs.lt_size hi))]
  exact hs.own? hi

theorem allocate (o : ObjectId) (name : String) (v : Value) (readOnly : Bool) :
    (s.allocate o name v readOnly).2.WellNamed := by
  refine of_own? fun o' name' i hi => ?_
  rw [slot_allocate]
  change ((s.addSlot _).2.bindMember o name ⟨s.slots.size⟩).own? o' name' = some i at hi
  rw [own?_bindMember] at hi
  split at hi
  · rename_i hnew
    cases hi
    rw [if_pos rfl, hnew.2.2]
  · have hi : s.own? o' name' = some i := hi
    rw [if_neg (Nat.ne_of_lt (hs.lt_size hi))]
    exact hs.own? hi

theorem writeSlot (i : SlotId) (v : Value) : (s.writeSlot i v).WellNamed := by
  refine of_own? fun o name j hj => ?_
  have hj : s.own? o name = some j := hj
  rw [slot_writeSlot]
  split
  · exact hs.own? hj
  · exact hs.own? hj

end WellNamed

theorem BuiltinOnly.of_payloads (hs : s.BuiltinOnly)
    (h : ∀ o, (s'.object o).payload = (s.object o).payload) : s'.BuiltinOnly := by
  intro o f g hf
  rw [Object.callable?, h] at hf
  exact hs o f g hf

theorem BuiltinOnly.addObject (hs : s.BuiltinOnly) {object : Object}
    (h : ∀ f g, object.callable? = some (.native f) → f.callback ≠ .host g) :
    (s.addObject object).2.BuiltinOnly := by
  intro o f g hf
  rw [object_addObject] at hf
  split at hf
  · exact h f g hf
  · exact hs o f g hf

/-- What has become of a state without functions of the host. -/
structure GrownFrom (start s : State) : Prop where
  wellNamed : s.WellNamed
  builtinOnly : s.BuiltinOnly
  grows : start.MembersGrow s

theorem GrownFrom.of_heap {start : State} (hs : start.GrownFrom s)
    (hobjects : s'.objects = s.objects) (hslots : s'.slots = s.slots) : start.GrownFrom s' where
  wellNamed := hs.wellNamed.of_heap hobjects hslots
  builtinOnly := hs.builtinOnly.of_payloads fun o => by rw [object, object, hobjects]
  grows := hs.grows.trans (.of_objects hobjects)

/-- A new object has no members yet. -/
theorem GrownFrom.addObject {start : State} (hs : start.GrownFrom s) {object : Object}
    (hmembers : ∀ name, object.members.find? name = none)
    (h : ∀ f g, object.callable? = some (.native f) → f.callback ≠ .host g) :
    start.GrownFrom (s.addObject object).2 where
  wellNamed := hs.wellNamed.addObject hmembers
  builtinOnly := hs.builtinOnly.addObject h
  grows := hs.grows.trans (s.membersGrow_addObject object)

/-! A new interpreter is well named. -/

theorem installs_wellNamed : Installs WellNamed where
  object hs ho := hs.addObject (by cases ho <;> exact fun _ => rfl)
  allocate name readOnly hs _ _ := hs.allocate _ name _ readOnly
  method _ _ hs _ := hs.of_heap rfl rfl

theorem wellNamed_bare (globalMarker thisMarker : Option String) (files : Files) :
    (bare globalMarker thisMarker files).WellNamed := by
  have hplain : ∀ {s : State} (c c'), s.objects = #[⟨c, ∅, .none⟩, ⟨c', ∅, .none⟩] →
      s.WellNamed := by
    intro s c c' hobjects
    refine .of_own? fun o name i h => ?_
    obtain ⟨_ | _ | k⟩ := o <;> simp [own?, object, hobjects] at h <;> cases h
  cases globalMarker <;> cases thisMarker
  · exact hplain _ _ rfl
  · exact (hplain _ _ rfl).allocate _ _ _ _
  · exact (hplain _ _ rfl).allocate _ _ _ _
  · exact ((hplain _ _ rfl).allocate _ _ _ _).allocate _ _ _ _

theorem wellNamed_install (globalMarker thisMarker : Option String) (files : Files) :
    (bare globalMarker thisMarker files).install.WellNamed :=
  installs_wellNamed.new (wellNamed_bare globalMarker thisMarker files)

end State

namespace Discipline

/-- Tables of members have only grown since an earlier state. -/
def grownFrom (start : State) : Discipline :=
  anything.restrict start.GrownFrom fun _ => False

theorem grownFrom_heapLaws (start : State) :
    anything.HeapLaws start.GrownFrom fun _ => False where
  of_heap hs _ hobjects hslots := hs.of_heap hobjects hslots
  settle := by
    intro s classes _ hs
    obtain ⟨_, _, h⟩ := s.settleAmong_sameButLives classes
    exact hs.of_heap (by rw [h]) (by rw [h])
  make _ hs hmakes := hs.addObject (by cases hmakes <;> exact fun _ => rfl) hmakes.callback_ne_host
  scope _ hs := hs.addObject (fun _ => rfl) fun _ _ hf => by cases hf
  addSlot slot hs := ⟨hs.wellNamed.addSlot slot, hs.builtinOnly, hs.grows.trans (.of_objects rfl)⟩
  allocate := by
    intro s o name v readOnly hs
    refine ⟨hs.wellNamed.allocate o name v readOnly, ?_, ?_⟩
    · exact hs.builtinOnly.of_payloads fun o' => s.payload_allocate o o' name v readOnly
    · exact hs.grows.trans (s.membersGrow_allocate o name v readOnly)
  write v hs _ := ⟨hs.wellNamed.writeSlot _ v, hs.builtinOnly, hs.grows.trans (.of_objects rfl)⟩
  hostOf _ hs hf hcallback := hs.builtinOnly _ _ _ hf hcallback

theorem grownFrom_lawful (start : State) : (grownFrom start).Lawful :=
  lawful_restrict anything_lawful (grownFrom_heapLaws start)

theorem grownFrom_open (start : State) : (grownFrom start).Open :=
  ⟨fun _ => trivial, fun _ => trivial, fun _ => trivial, fun _ _ => trivial, fun _ _ => trivial⟩

end Discipline

open Discipline in
theorem State.Runs.grownFrom {start s s' : State} (h : s.Runs s') (hs : start.GrownFrom s) :
    start.GrownFrom s' :=
  ((grownFrom_lawful start).runs (hosts_of_none fun _ => id) (grownFrom_open start)
    ⟨trivial, hs⟩ h).2

/-- Whatever code is run without functions of the host, one after the other and however it ends: in the
end, and whenever something is asked for in the middle, own members have different names and slots that
say them, every object that there was has its class and its payload, and its members come in the order
in which they came, in front of new ones. -/
theorem members_only_grow (s s' : State) (hs : s.WellNamed) (hbuiltin : s.BuiltinOnly)
    (h : Relation.ReflTransGen State.Runs s s') : s'.WellNamed ∧ s.MembersGrow s' := by
  have hgrown : s.GrownFrom s' := by
    induction h with
    | refl => exact ⟨hs, hbuiltin, .refl s⟩
    | tail _ hlast ih => exact hlast.grownFrom ih
  exact ⟨hgrown.wellNamed, hgrown.grows⟩

/-- A script that binds some names again and adds others, and ends in an exception. -/
def rebindingScript : String :=
  "let sys = 1; to_int2 = 2; const Object = 3; function include() \x7b \x7d throw new_name;"

def reboundNames : List String :=
  ["Object", "Exception", "SyntaxError", "String", "sys", "include", "to_int", "to_bool", "to_int2",
    "new_name"]

/-- A new interpreter keeps its global names in place, whatever a script makes of them. -/
theorem members_only_grow_rebinding :
    (State.initial default).WellNamed ∧ (State.initial default).BuiltinOnly ∧
    ∃ s, (Eval.run 60 rebindingScript .script (State.initial default)).EndsIn s ∧
      (s.object ⟨0⟩).members.names = reboundNames ∧ s.WellNamed ∧
      (State.initial default).MembersGrow s := by
  have hnamed : (State.initial default).WellNamed := State.wellNamed_install none none default
  have hbuiltin : (State.initial default).BuiltinOnly :=
    (State.sealed_install none none default).natives
  have hcheck : (Eval.run 60 rebindingScript .script (State.initial default)).state?.any (fun s =>
      decide ((s.object ⟨0⟩).members.names = reboundNames)) = true := by
    decide +kernel
  obtain ⟨s, hs, hnames⟩ := Outcome.exists_endsIn hcheck
  have hruns : (State.initial default).Runs s := .source 60 rebindingScript .script hs
  have hgrow := members_only_grow (State.initial default) s hnamed hbuiltin (.single hruns)
  exact ⟨hnamed, hbuiltin, s, hs, of_decide_eq_true hnames, hgrow⟩

end Scripting
