import Scripting.Proofs.Inheritance.Ancestry
import Scripting.Proofs.Liveness.Search
import Scripting.Proofs.Path

/-!
Lives that are settled stay settled.

While a path is evaluated, the state is only extended: members are added where there were none, slots
are added, and the lives of classes are settled. What was held is then held later too. Main statement:
where the lives of the bases of a class were settled once, they need not be settled again
(`Settled.extend`, `Closed.settleLineage_eq`).
-/

namespace Scripting

namespace State

variable {c : ClassId}

theorem mem_keptClasses_iff {s : State} :
    c ∈ s.keptClasses ↔
      c.index < s.classes.size ∧ (s.classInfo c).alive = true ∧ c ∉ s.mortal := by
  have hindex : c.index ∈ s.mortal.map (·.index) ↔ c ∈ s.mortal := by
    constructor
    · intro hmem
      obtain ⟨c', hc', hsame⟩ := List.mem_map.1 hmem
      obtain rfl : c' = c := congrArg ClassId.mk hsame
      exact hc'
    · exact List.mem_map_of_mem
  have hrange : c ∈ (List.range s.classes.size).map ClassId.mk ↔ c.index < s.classes.size := by
    rw [List.mem_map]
    constructor
    · rintro ⟨i, hi, rfl⟩
      exact List.mem_range.1 hi
    · exact fun hc => ⟨c.index, List.mem_range.2 hc, rfl⟩
  simp only [keptClasses, List.mem_filter, hrange, Bool.and_eq_true, Bool.not_eq_true',
    Std.TreeSet.contains_ofList, Bool.eq_false_iff, Ne, List.contains_iff_mem, hindex]

/-- A later state in which nothing is gone but the lives of some mortal classes. -/
structure Extends (s s' : State) : Prop where
  global : s'.global = s.global
  globalThis : s'.globalThis = s.globalThis
  frames : s'.frames = s.frames
  objects : s'.objects.size = s.objects.size
  classId : ∀ o, (s'.object o).classId = (s.object o).classId
  payload : ∀ o, (s'.object o).payload = (s.object o).payload
  own : ∀ o name i, s.own? o name = some i → s'.own? o name = some i
  slots : s.KeepsOld s'
  classes : s'.classes.size = s.classes.size
  classInfo : ∀ c, s'.classInfo c = { s.classInfo c with alive := (s'.classInfo c).alive }
  alive : ∀ c, (s'.classInfo c).alive = true → (s.classInfo c).alive = true
  mortal : ∀ c ∈ s'.mortal, c ∈ s.mortal
  kept : ∀ c, c ∉ s.mortal → (s'.classInfo c).alive = (s.classInfo c).alive
  held : ∀ node ∈ s.held, node ∈ s'.held

variable {s s' s'' : State}

namespace Extends

theorem refl (s : State) : s.Extends s where
  global := rfl
  globalThis := rfl
  frames := rfl
  objects := rfl
  classId _ := rfl
  payload _ := rfl
  own _ _ _ h := h
  slots := .refl s
  classes := rfl
  classInfo _ := rfl
  alive _ h := h
  mortal _ h := h
  kept _ _ := rfl
  held _ h := h

theorem trans (h : s.Extends s') (h' : s'.Extends s'') : s.Extends s'' where
  global := h'.global.trans h.global
  globalThis := h'.globalThis.trans h.globalThis
  frames := h'.frames.trans h.frames
  objects := h'.objects.trans h.objects
  classId o := (h'.classId o).trans (h.classId o)
  payload o := (h'.payload o).trans (h.payload o)
  own o name i hi := h'.own o name i (h.own o name i hi)
  slots := h.slots.trans h'.slots
  classes := h'.classes.trans h.classes
  classInfo c := by rw [h'.classInfo c, h.classInfo c]
  alive c hc := h.alive c (h'.alive c hc)
  mortal c hc := h.mortal c (h'.mortal c hc)
  kept c hc := by rw [h'.kept c fun hmem => hc (h.mortal c hmem), h.kept c hc]
  held node hnode := h'.held node (h.held node hnode)

/-! What is held. -/

theorem mem_heldBy (h : s.Extends s') {node child : Node} (hchild : child ∈ s.heldBy node) :
    child ∈ s'.heldBy node := by
  cases node with
  | object o =>
    simp only [heldBy, List.mem_append, List.mem_map, h.classId, h.payload] at hchild ⊢
    rcases hchild with hother | ⟨⟨name, i⟩, hi, rfl⟩
    · exact .inl hother
    · right
      refine ⟨⟨name, i⟩, ?_, rfl⟩
      rw [Table.mem_entries_iff] at hi ⊢
      exact h.own o name i hi
  | slot i =>
    rw [heldBy] at hchild ⊢
    by_cases hi : i.index < s.slots.size
    · rwa [h.slots.slot i hi]
    · rw [slot_of_size_le s (Nat.not_lt.1 hi)] at hchild
      cases hchild
  | «class» c =>
    rw [heldBy] at hchild ⊢
    rwa [h.classInfo c]

theorem mem_roots (h : s.Extends s') {node : Node} (hnode : node ∈ s.roots) : node ∈ s'.roots := by
  simp only [roots, List.mem_append, h.frames, h.global, h.globalThis] at hnode ⊢
  rcases hnode with ((hheld | hframe) | hglobal) | hclass
  · exact .inl (.inl (.inl (h.held node hheld)))
  · exact .inl (.inl (.inr hframe))
  · exact .inl (.inr hglobal)
  · obtain ⟨c, hc, rfl⟩ := List.mem_map.1 hclass
    obtain ⟨hsize, halive, himmortal⟩ := mem_keptClasses_iff.1 hc
    have hkept : c ∈ s'.keptClasses := mem_keptClasses_iff.2
      ⟨h.classes ▸ hsize, (h.kept c himmortal).trans halive, fun hmem => himmortal (h.mortal c hmem)⟩
    exact .inr (List.mem_map_of_mem hkept)

theorem rooted (h : s.Extends s') {node : Node} (hnode : s.Rooted node) : s'.Rooted node := by
  induction hnode with
  | root hroot => exact .root (h.mem_roots hroot)
  | link _ hchild ih => exact .link ih (h.mem_heldBy hchild)

/-! Classes. -/

/-- A chain of bases can only get shorter. -/
theorem lineage_eq (h : s.Extends s') (c : ClassId) :
    s'.lineage c = c :: (s.lineage c).tail.takeWhile fun b => (s'.classInfo b).alive :=
  lineage_eq_takeWhile h.classes (fun c => by rw [h.classInfo c]) h.alive c

theorem mem_bases (h : s.Extends s') {c c' : ClassId} (hc : c' ∈ (s'.lineage c).tail) :
    c' ∈ (s.lineage c).tail := by
  rw [h.lineage_eq] at hc
  exact (List.takeWhile_prefix _).subset hc

theorem mem_lineage (h : s.Extends s') {c c' : ClassId} (hc : c' ∈ s'.lineage c) :
    c' ∈ s.lineage c := by
  rw [h.lineage_eq] at hc
  rcases List.mem_cons.1 hc with rfl | hbase
  · rw [lineage, lineageUpTo]
    exact List.mem_cons_self
  · exact List.mem_of_mem_tail ((List.takeWhile_prefix _).subset hbase)

theorem objectMethod?_eq_none (h : s.Extends s') {o : ObjectId} {name : String}
    (hnone : s.objectMethod? o name = none) : s'.objectMethod? o name = none := by
  unfold objectMethod? at hnone ⊢
  rw [h.classId]
  cases hc : (s.object o).classId with
  | none => rfl
  | some c =>
    rw [hc] at hnone
    change s.method? c name = none at hnone
    change s'.method? c name = none
    unfold method? at hnone ⊢
    rw [List.findSome?_eq_none_iff] at hnone ⊢
    intro k hk
    rw [h.classInfo k]
    exact hnone k (h.mem_lineage hk)

/-! Things are held in both states. -/

theorem hold (h : s.Extends s') (nodes : List Node) : (s.hold nodes).Extends (s'.hold nodes) :=
  { h with
    slots := ⟨h.slots.size, h.slots.slot⟩
    held := by
      intro node hnode
      rcases List.mem_append.1 hnode with hnew | hold
      · by_cases hmem : node ∈ s'.held
        · exact List.mem_append_right _ hmem
        · apply List.mem_append_left
          rw [List.mem_filter] at hnew ⊢
          exact ⟨hnew.1, by simpa using hmem⟩
      · exact List.mem_append_right _ (h.held node hold) }

end Extends

/-! Changes that extend a state. -/

theorem Settles.extends (h : s.Settles s') : s.Extends s' := by
  obtain ⟨hsame, hsize, hinfo, halive, hmortal, hkept⟩ := h
  obtain ⟨classes, mortal, rfl⟩ := hsame
  exact { Extends.refl s with
    slots := .of_slots rfl
    classes := hsize
    classInfo := hinfo
    alive := halive
    mortal := hmortal
    kept := hkept }

theorem extends_hold (s : State) (nodes : List Node) : s.Extends (s.hold nodes) :=
  { Extends.refl s with
    slots := .of_slots rfl
    held := fun _ hnode => List.mem_append_right _ hnode }

/-- A member is added where there was none. -/
theorem extends_allocate {o : ObjectId} {name : String} (hnone : s.own? o name = none) (v : Value)
    (readOnly : Bool) : s.Extends (s.allocate o name v readOnly).2 :=
  { Extends.refl s with
    objects := by simp [allocate, addSlot, bindMember]
    classId := fun o' => classId_allocate s o o' name v readOnly
    payload := fun o' => payload_allocate s o o' name v readOnly
    own := by
      intro o' name' i hi
      change ((s.addSlot _).2.bindMember o name _).own? o' name' = some i
      rw [own?_bindMember, if_neg]
      · exact hi
      · rintro ⟨rfl, -, rfl⟩
        rw [hnone] at hi
        cases hi
    slots := s.keepsOld_allocate o name v readOnly }

/-! Lives that are settled. -/

/-- The mortal classes among the bases of a class are held. -/
def Settled (s : State) (c : ClassId) : Prop :=
  ∀ c' ∈ (s.lineage c).tail, c' ∈ s.mortal → s.Rooted (.class c')

theorem Settled.extend (hc : s.Settled c) (h : s.Extends s') : s'.Settled c := by
  intro c' hbase hmortal
  exact h.rooted (hc c' (h.mem_bases hbase) (h.mortal c' hmortal))

/-- A class that is not held is not mortal any more. -/
theorem not_mem_mortal_foldl (counts : Array Nat) {ended : List ClassId} (hc : c ∈ ended)
    (s : State) : c ∉ (ended.foldl (settleUnreached counts) s).mortal := by
  have hone (s : State) (c' : ClassId) :
      (settleUnreached counts s c').mortal = s.mortal.filter (· ≠ c') := by
    unfold settleUnreached
    dsimp only
    split <;> rfl
  have hkeeps (ended : List ClassId) (s : State) (h : c ∉ s.mortal) :
      c ∉ (ended.foldl (settleUnreached counts) s).mortal := by
    induction ended generalizing s with
    | nil => exact h
    | cons c' rest ih =>
      apply ih
      rw [hone]
      exact fun hmem => h (List.mem_filter.1 hmem).1
  induction ended generalizing s with
  | nil => cases hc
  | cons c' rest ih =>
    rw [List.foldl_cons]
    rcases List.mem_cons.1 hc with rfl | hrest
    · apply hkeeps
      rw [hone]
      simp
    · exact ih hrest _

/-- Only the lives of the classes that are settled can end. -/
theorem classInfo_foldl (counts : Array Nat) {ended : List ClassId} (hc : c ∉ ended) (s : State) :
    (ended.foldl (settleUnreached counts) s).classInfo c = s.classInfo c := by
  induction ended generalizing s with
  | nil => rfl
  | cons c' rest ih =>
    rw [List.mem_cons, not_or] at hc
    rw [List.foldl_cons, ih hc.2]
    unfold settleUnreached
    dsimp only
    split
    · rw [classInfo_endLife, if_neg (fun h => hc.1 h.1)]
      rfl
    · rfl

namespace Closed

variable (hs : s.Closed)
include hs

/-- A class that something leads to does not end its life. -/
theorem classInfo_settleAmong (hc : s.Rooted (.class c)) (classes : List ClassId) :
    (s.settleAmong classes).classInfo c = s.classInfo c := by
  unfold settleAmong
  dsimp only
  split
  · rfl
  · split
    · rfl
    · apply classInfo_foldl
      intro hended
      have hunreached := List.contains_iff_mem.1 (List.mem_filter.1 hended).2
      exact (hs.mem_unreached_iff.1 hunreached).2 hc

/-- After settling among some classes, those of them that are mortal are held. -/
theorem rooted_of_settleAmong {classes : List ClassId} (hc : c ∈ classes)
    (hmortal : c ∈ (s.settleAmong classes).mortal) : s.Rooted (.class c) := by
  have hmem := (s.settles_settleAmong classes).mortal c hmortal
  have hfilter : c ∈ classes.filter s.mortal.contains :=
    List.mem_filter.2 ⟨hc, List.contains_iff_mem.2 hmem⟩
  by_contra hnot
  have hmissing : .class c ∈ s.unreached ((classes.filter s.mortal.contains).map .class) :=
    hs.mem_unreached_iff.2 ⟨List.mem_map_of_mem hfilter, hnot⟩
  have hended : c ∈ (classes.filter s.mortal.contains).filter fun c =>
      (s.unreached ((classes.filter s.mortal.contains).map .class)).contains (.class c) :=
    List.mem_filter.2 ⟨hfilter, List.contains_iff_mem.2 hmissing⟩
  unfold settleAmong at hmortal
  dsimp only at hmortal
  rw [if_neg, if_neg] at hmortal
  · exact not_mem_mortal_foldl _ hended s hmortal
  · rw [List.isEmpty_iff]
    exact List.ne_nil_of_mem hended
  · rw [List.isEmpty_iff]
    exact List.ne_nil_of_mem hfilter

/-- Where all mortal classes are held, there is nothing to settle. -/
theorem settleAmong_eq {classes : List ClassId}
    (h : ∀ c ∈ classes, c ∈ s.mortal → s.Rooted (.class c)) : s.settleAmong classes = s := by
  unfold settleAmong
  dsimp only
  split
  · rfl
  · rw [if_pos]
    rw [List.isEmpty_iff, List.filter_eq_nil_iff]
    intro c hc hmissing
    rw [List.mem_filter] at hc
    have hunreached := hs.mem_unreached_iff.1 (List.contains_iff_mem.1 hmissing)
    exact hunreached.2 (h c hc.1 (List.contains_iff_mem.1 hc.2))

theorem settled_settleLineage (c : ClassId) : (s.settleLineage c).Settled c := by
  unfold settleLineage
  split
  · rename_i hempty
    intro c' _ hmortal
    rw [List.isEmpty_iff.1 hempty] at hmortal
    cases hmortal
  · intro c' hbase hmortal
    have hextends := (s.settles_settleAmong (s.lineage c).tail).extends
    exact hextends.rooted (hs.rooted_of_settleAmong (hextends.mem_bases hbase) hmortal)

theorem settleLineage_eq (hc : s.Settled c) : s.settleLineage c = s := by
  unfold settleLineage
  split
  · rfl
  · exact hs.settleAmong_eq hc

theorem settled_settleObject {o : ObjectId} (hc : (s.object o).classId = some c) :
    (s.settleObject o).Settled c := by
  unfold settleObject
  rw [hc]
  exact hs.settled_settleLineage c

theorem classInfo_settleObject (hc : s.Rooted (.class c)) (o : ObjectId) :
    (s.settleObject o).classInfo c = s.classInfo c := by
  unfold settleObject settleLineage
  split
  · split
    · rfl
    · exact hs.classInfo_settleAmong hc _
  · rfl

theorem settleObject_eq {o : ObjectId}
    (h : ∀ c, (s.object o).classId = some c → s.Settled c) : s.settleObject o = s := by
  unfold settleObject
  split
  · rename_i c hc
    exact hs.settleLineage_eq (h c hc)
  · rfl

theorem hold {nodes : List Node} (hnodes : ∀ node ∈ nodes, s.Has node) : (s.hold nodes).Closed :=
  hs.outside ⟨_, _, _, _, rfl⟩ (fun _ => .inl) fun node hnode =>
    (mem_held_hold hnode).imp_right (hnodes node)

end Closed

end State

namespace Eval

open State

variable {s : State} {o : ObjectId}

/-- An object is held while it is settled which of its classes are alive. -/
theorem settleObject_eq (o : ObjectId) (s : State) :
    settleObject o s = .ok () { (s.hold [.object o]).settleObject o with held := s.held } := by
  unfold settleObject holding change
  dsimp only
  split
  · rename_i hmortal
    have hnone := List.isEmpty_iff.1 hmortal
    rw [settleObject_eq_self hnone, settleObject_eq_self (s := s.hold _) hnone]
    rfl
  · rfl

theorem settleObject_settled (hs : s.Closed) (ho : s.Has (.object o)) :
    ∃ t, settleObject o s = .ok () t ∧ s.Settles t ∧
      (∀ own, (t.object o).classId = some own → (t.hold [.object o]).Settled own) ∧
      ∀ c, s.Rooted (.class c) → t.classInfo c = s.classInfo c := by
  have hheld := hs.hold (List.forall_mem_singleton.2 ho)
  have hsettles := (s.hold [.object o]).settles_settleObject o
  refine ⟨_, settleObject_eq o s, hsettles.held, ?_, ?_⟩
  · have hback : ({ (s.hold [.object o]).settleObject o with held := s.held } : State).hold
        [.object o] = (s.hold [.object o]).settleObject o := by
      obtain ⟨classes, mortal, hsame⟩ := hsettles.same
      rw [hsame]
      rfl
    intro own hown
    rw [hback]
    apply hheld.settled_settleObject
    rw [← hsettles.extends.classId]
    exact hown
  · exact fun c hc => hheld.classInfo_settleObject ((s.extends_hold _).rooted hc) o

end Eval

end Scripting
