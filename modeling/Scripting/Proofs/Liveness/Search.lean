import Mathlib.Data.List.Perm.Subperm
import Scripting.Proofs.Liveness.Closed

/-!
The search for what is held.

`State.unreached` goes from the roots along the links between things, one round after the other, and
stops when all goals are found or nothing new is. Main statement: in a closed state it gives the goals
to which no chain of holders leads from a root (`Closed.mem_unreached_iff`).
-/

namespace Scripting

namespace State

/-- Things to which a chain of holders leads from a root. -/
inductive Rooted (s : State) : Node → Prop where
  | root {node : Node} (h : node ∈ s.roots) : Rooted s node
  | link {node child : Node} (h : Rooted s node) (hchild : child ∈ s.heldBy node) : Rooted s child

variable {s : State} {node : Node}

theorem Closed.has_of_rooted (hs : s.Closed) (h : s.Rooted node) : s.Has node := by
  cases h with
  | root h => exact hs.has_of_mem_roots h
  | link _ hchild => exact hs.links _ _ hchild

/-! Numbers of things. -/

theorem nodeNumber_lt (h : s.Has node) : s.nodeNumber node < s.nodeCount := by
  cases node <;> simp only [Has, nodeNumber, nodeCount] at * <;> omega

/-- Things that exist have different numbers. -/
theorem eq_of_nodeNumber_eq {node other : Node} (h : s.Has node) (h' : s.Has other)
    (heq : s.nodeNumber node = s.nodeNumber other) : node = other := by
  cases node with
  | object o =>
    cases other with
    | object o' => exact congrArg (Node.object ∘ ObjectId.mk) heq
    | _ => simp only [Has, nodeNumber] at *; omega
  | slot i =>
    cases other with
    | slot i' =>
      simp only [nodeNumber, Nat.add_left_cancel_iff] at heq
      exact congrArg (Node.slot ∘ SlotId.mk) heq
    | _ => simp only [Has, nodeNumber] at *; omega
  | «class» c =>
    cases other with
    | «class» c' =>
      simp only [nodeNumber, Nat.add_left_cancel_iff] at heq
      exact congrArg (Node.class ∘ ClassId.mk) heq
    | _ => simp only [Has, nodeNumber] at *; omega

/-- No thing that exists has the number of another class, even if that one does not exist. -/
theorem eq_class_of_nodeNumber_eq {c : ClassId} (h : s.Has node)
    (heq : s.nodeNumber node = s.nodeNumber (.class c)) : node = .class c := by
  cases node with
  | «class» c' =>
    simp only [nodeNumber, Nat.add_left_cancel_iff] at heq
    exact congrArg (Node.class ∘ ClassId.mk) heq
  | _ => simp only [Has, nodeNumber] at *; omega

/-! Adding things that were found. -/

/-- The thing was found. -/
def Found.Sees (s : State) (found : Found) (node : Node) : Prop :=
  found.seen.contains (s.nodeNumber node) = true

/-- Some things are added to those that were found. The new ones among them are in the front. -/
structure Found.Adds (s : State) (nodes : List Node) (found found' : Found) : Prop where
  seen : ∀ k, found'.seen.contains k = true ↔
    found.seen.contains k = true ∨ ∃ node ∈ nodes, s.nodeNumber node = k
  front : ∀ node ∈ found'.front, node ∈ found.front ∨ node ∈ nodes
  keeps : ∀ node ∈ found.front, node ∈ found'.front
  new : ∀ k, found'.seen.contains k = true →
    found.seen.contains k = true ∨ ∃ node ∈ found'.front, s.nodeNumber node = k
  size : found'.seen.size + found.front.length = found.seen.size + found'.front.length

namespace Found

theorem Adds.nil (s : State) (found : Found) : Adds s [] found found where
  seen k := by simp
  front _ h := .inl h
  keeps _ h := h
  new _ h := .inl h
  size := rfl

theorem Adds.append {nodes more : List Node} {found found' found'' : Found}
    (h : Adds s nodes found found') (h' : Adds s more found' found'') :
    Adds s (nodes ++ more) found found'' where
  seen k := by
    rw [h'.seen k, h.seen k, or_assoc]
    simp only [List.mem_append, or_and_right, exists_or]
  front node hnode := by
    rcases h'.front node hnode with hold | hnew
    · exact (h.front node hold).imp_right (List.mem_append_left more)
    · exact .inr (List.mem_append_right nodes hnew)
  keeps node hnode := h'.keeps node (h.keeps node hnode)
  new k hk := by
    rcases h'.new k hk with hold | hnew
    · rcases h.new k hold with hold | ⟨node, hnode, hnumber⟩
      · exact .inl hold
      · exact .inr ⟨node, h'.keeps node hnode, hnumber⟩
    · exact .inr hnew
  size := by
    have := h.size
    have := h'.size
    omega

theorem adds_add (s : State) (found : Found) (node : Node) :
    Adds s [node] found (found.add s node) := by
  unfold Found.add
  dsimp only
  split
  · rename_i hseen
    refine ⟨?_, fun _ h => .inl h, fun _ h => h, fun _ h => .inl h, rfl⟩
    intro k
    simp only [List.mem_singleton, exists_eq_left]
    constructor
    · exact fun h => .inl h
    · rintro (hold | rfl)
      · exact hold
      · exact hseen
  · rename_i hseen
    have hinsert (k : Nat) : (found.seen.insert (s.nodeNumber node)).contains k = true ↔
        found.seen.contains k = true ∨ s.nodeNumber node = k := by
      rw [Std.TreeSet.contains_insert]
      simp [or_comm]
    refine ⟨?_, ?_, ?_, ?_, ?_⟩
    · simpa using hinsert
    · intro node' hnode'
      rcases List.mem_cons.1 hnode' with rfl | hold
      · exact .inr (List.mem_singleton.2 rfl)
      · exact .inl hold
    · exact fun node' hnode' => List.mem_cons_of_mem _ hnode'
    · intro k hk
      exact ((hinsert k).1 hk).imp_right fun h => ⟨node, List.mem_cons_self, h⟩
    · dsimp only
      rw [Std.TreeSet.size_insert, if_neg hseen, List.length_cons]
      omega

theorem adds_foldl (s : State) (found : Found) (nodes : List Node) :
    Adds s nodes found (nodes.foldl (Found.add s) found) := by
  induction nodes generalizing found with
  | nil => exact .nil s found
  | cons node rest ih => exact (adds_add s found node).append (ih _)

/-- One round adds what the things found last hold. -/
theorem adds_next (s : State) (found : Found) :
    Adds s (found.front.flatMap s.heldBy) { found with front := [] } (found.next s) := by
  have hfold (front : List Node) (found : Found) : Adds s (front.flatMap s.heldBy) found
      (front.foldl (fun found node => (s.heldBy node).foldl (Found.add s) found) found) := by
    induction front generalizing found with
    | nil => exact .nil s found
    | cons node rest ih => exact (adds_foldl s found (s.heldBy node)).append (ih _)
  exact hfold found.front _

end Found

/-! The search. -/

/-- Between two rounds, all that was found is rooted, the roots are found, and what a found thing holds
is found too, unless the thing was found last. -/
structure Found.Searches (s : State) (found : Found) : Prop where
  rooted : ∀ k, found.seen.contains k = true → ∃ node, s.Rooted node ∧ s.nodeNumber node = k
  front : ∀ node ∈ found.front, s.Rooted node
  roots : ∀ node ∈ s.roots, found.Sees s node
  closed : ∀ node, s.Rooted node → found.Sees s node →
    node ∈ found.front ∨ ∀ child ∈ s.heldBy node, found.Sees s child

namespace Found.Searches

variable {found : Found} (hs : s.Closed)
include hs

theorem start : Searches s (s.roots.foldl (Found.add s) {}) := by
  have hadds := adds_foldl s {} s.roots
  have hempty (k : Nat) : ({} : Found).seen.contains k ≠ true := by
    change (∅ : Std.TreeSet Nat).contains k ≠ true
    simp
  refine ⟨?_, ?_, ?_, ?_⟩
  · intro k hk
    rcases (hadds.seen k).1 hk with hold | ⟨node, hnode, hnumber⟩
    · exact absurd hold (hempty k)
    · exact ⟨node, .root hnode, hnumber⟩
  · intro node hnode
    rcases hadds.front node hnode with hold | hnew
    · cases hold
    · exact .root hnew
  · exact fun node hnode => (hadds.seen _).2 (.inr ⟨node, hnode, rfl⟩)
  · intro node hrooted hsees
    rcases hadds.new _ hsees with hold | ⟨node', hnode', hnumber⟩
    · exact absurd hold (hempty _)
    · left
      rcases hadds.front node' hnode' with hold | hroot
      · cases hold
      · rwa [← eq_of_nodeNumber_eq (hs.has_of_mem_roots hroot) (hs.has_of_rooted hrooted) hnumber]

theorem next (h : Searches s found) : Searches s (found.next s) := by
  have hadds := adds_next s found
  have hheld {node child : Node} (hnode : node ∈ found.front) (hchild : child ∈ s.heldBy node) :
      s.Rooted child := .link (h.front node hnode) hchild
  have hfront : ∀ node ∈ (found.next s).front, s.Rooted node := by
    intro node hnode
    rcases hadds.front node hnode with hold | hnew
    · cases hold
    · obtain ⟨parent, hparent, hchild⟩ := List.mem_flatMap.1 hnew
      exact hheld hparent hchild
  have hgrows {node : Node} (hsees : found.Sees s node) : (found.next s).Sees s node :=
    (hadds.seen _).2 (.inl hsees)
  refine ⟨?_, hfront, fun node hnode => hgrows (h.roots node hnode), ?_⟩
  · intro k hk
    rcases (hadds.seen k).1 hk with hold | ⟨node, hnode, hnumber⟩
    · exact h.rooted k hold
    · obtain ⟨parent, hparent, hchild⟩ := List.mem_flatMap.1 hnode
      exact ⟨node, hheld hparent hchild, hnumber⟩
  · intro node hrooted hsees
    rcases hadds.new _ hsees with hold | ⟨node', hnode', hnumber⟩
    · right
      intro child hchild
      rcases h.closed node hrooted hold with hmem | hchildren
      · exact (hadds.seen _).2 (.inr ⟨child, List.mem_flatMap.2 ⟨node, hmem, hchild⟩, rfl⟩)
      · exact hgrows (hchildren child hchild)
    · left
      have hhas := hs.has_of_rooted (hfront node' hnode')
      rwa [← eq_of_nodeNumber_eq hhas (hs.has_of_rooted hrooted) hnumber]

omit hs in
/-- If nothing was found in the last round, everything is found. -/
theorem sees_of_rooted (h : Searches s found) (hfront : found.front = [])
    (hrooted : s.Rooted node) : found.Sees s node := by
  induction hrooted with
  | root hroot => exact h.roots _ hroot
  | link hnode hchild ih =>
    rcases h.closed _ hnode ih with hmem | hchildren
    · rw [hfront] at hmem
      cases hmem
    · exact hchildren _ hchild

/-- A class that is seen is rooted. -/
theorem rooted_of_sees (h : Searches s found) {c : ClassId} (hsees : found.Sees s (.class c)) :
    s.Rooted (.class c) := by
  obtain ⟨node, hrooted, hnumber⟩ := h.rooted _ hsees
  rwa [← eq_class_of_nodeNumber_eq (hs.has_of_rooted hrooted) hnumber]

/-- There are no more things to find than there are things. -/
theorem size_le (h : Searches s found) : found.seen.size ≤ s.nodeCount := by
  have hnodup : found.seen.toList.Nodup := by
    apply List.Pairwise.imp _ found.seen.distinct_toList
    rintro a _ hne rfl
    exact hne Std.ReflCmp.compare_self
  have hsubset : found.seen.toList ⊆ List.range s.nodeCount := by
    intro k hk
    obtain ⟨node, hrooted, rfl⟩ := h.rooted k (Std.TreeSet.mem_toList.1 hk)
    exact List.mem_range.2 (nodeNumber_lt (hs.has_of_rooted hrooted))
  have hle := (List.subperm_of_subset hnodup hsubset).length_le
  rwa [Std.TreeSet.length_toList, List.length_range] at hle

/-- There are enough rounds left: each of them but the last finds something. -/
theorem mem_unreachedUpTo_iff (h : Searches s found) {n : Nat}
    (hn : found.front = [] ∧ 1 ≤ n ∨ s.nodeCount + 2 ≤ found.seen.size + n) {goals : List Node}
    {c : ClassId} :
    .class c ∈ s.unreachedUpTo n found goals ↔ .class c ∈ goals ∧ ¬s.Rooted (.class c) := by
  induction n generalizing found goals with
  | zero =>
    have hsize := h.size_le hs
    omega
  | succ n ih =>
    have hsize := h.size_le hs
    have hunseen : .class c ∈ goals.filter (fun goal => !found.seen.contains (s.nodeNumber goal)) ↔
        .class c ∈ goals ∧ ¬found.Sees s (.class c) := by
      rw [List.mem_filter, Bool.not_eq_true', Found.Sees, Bool.not_eq_true]
    rw [unreachedUpTo]
    split
    · rename_i hstop
      rw [Bool.or_eq_true, List.isEmpty_iff, List.isEmpty_iff] at hstop
      rw [hunseen]
      constructor
      · rintro ⟨hgoal, hnot⟩
        refine ⟨hgoal, fun hrooted => ?_⟩
        rcases hstop with hnone | hfront
        · have hmem := hunseen.2 ⟨hgoal, hnot⟩
          rw [hnone] at hmem
          cases hmem
        · exact hnot (h.sees_of_rooted hfront hrooted)
      · rintro ⟨hgoal, hnot⟩
        exact ⟨hgoal, fun hsees => hnot (h.rooted_of_sees hs hsees)⟩
    · rename_i hgo
      rw [Bool.or_eq_true, List.isEmpty_iff, List.isEmpty_iff, not_or] at hgo
      have hrounds := hn.resolve_left fun hdone => hgo.2 hdone.1
      rw [ih (h.next hs), hunseen]
      · constructor
        · exact fun hmem => ⟨hmem.1.1, hmem.2⟩
        · exact fun hmem => ⟨⟨hmem.1, fun hsees => hmem.2 (h.rooted_of_sees hs hsees)⟩, hmem.2⟩
      · have hnew := (adds_next s found).size
        dsimp only [List.length_nil] at hnew
        cases hfront : (found.next s).front with
        | nil => exact .inl ⟨rfl, by omega⟩
        | cons node rest =>
          right
          rw [hfront, List.length_cons] at hnew
          omega

end Found.Searches

theorem Closed.mem_unreached_iff (hs : s.Closed) {goals : List Node} {c : ClassId} :
    .class c ∈ s.unreached goals ↔ .class c ∈ goals ∧ ¬s.Rooted (.class c) := by
  apply (Found.Searches.start hs).mem_unreachedUpTo_iff hs
  right
  omega

end State

end Scripting
