import Std.Data.TreeMap

/-!
Tables from names to entries that keep the order in which names were first inserted.

The entries stand in one array, and an index says where a name stands. That the two agree is part of
the type. Main statements: what is found after an insertion, that no name stands twice, and that an
insertion keeps the names and their order and adds at most one name at the end.
-/

namespace Scripting

structure Table (α : Type) where
  items : Array (String × α)
  index : Std.TreeMap String Nat
  agrees : ∀ (name : String) (i : Nat), index[name]? = some i ↔ ∃ value, items[i]? = some (name, value)

namespace Table

variable {α : Type}

def empty : Table α where
  items := #[]
  index := ∅
  agrees name i := by simp

instance : EmptyCollection (Table α) := ⟨empty⟩

instance : Inhabited (Table α) := ⟨empty⟩

/-- The entries in the order of their names. -/
def entries (t : Table α) : List (String × α) :=
  t.items.toList

def find? (t : Table α) (name : String) : Option α :=
  match t.index[name]? with
  | some i => t.items[i]?.map (·.2)
  | none => none

theorem agrees_set (t : Table α) {name : String} {i : Nat} (value : α)
    (h : t.index[name]? = some i) (other : String) (j : Nat) :
    t.index[other]? = some j ↔
      ∃ v, (t.items.setIfInBounds i (name, value))[j]? = some (other, v) := by
  obtain ⟨old, hold⟩ := (t.agrees name i).1 h
  obtain ⟨hi, -⟩ := Array.getElem?_eq_some_iff.1 hold
  rw [t.agrees, Array.getElem?_setIfInBounds]
  by_cases hij : i = j
  · subst hij
    simp only [hold, hi, if_true, Option.some.injEq, Prod.mk.injEq]
    constructor
    · rintro ⟨_, rfl, -⟩
      exact ⟨value, rfl, rfl⟩
    · rintro ⟨_, rfl, -⟩
      exact ⟨old, rfl, rfl⟩
  · simp [hij]

theorem agrees_push (t : Table α) {name : String} (value : α) (h : t.index[name]? = none)
    (other : String) (j : Nat) :
    (t.index.insert name t.items.size)[other]? = some j ↔
      ∃ v, (t.items.push (name, value))[j]? = some (other, v) := by
  rw [Std.TreeMap.getElem?_insert, Array.getElem?_push]
  by_cases hname : name = other
  · subst hname
    rw [if_pos Std.ReflCmp.compare_self]
    by_cases hj : j = t.items.size
    · subst hj
      simp
    · rw [if_neg hj]
      constructor
      · intro heq
        exact absurd (Option.some.inj heq).symm hj
      · rintro ⟨v, hv⟩
        have := (t.agrees name j).2 ⟨v, hv⟩
        rw [h] at this
        cases this
  · rw [if_neg (fun heq => hname (Std.LawfulEqCmp.eq_of_compare heq)), t.agrees]
    by_cases hj : j = t.items.size
    · subst hj
      simp [hname]
    · rw [if_neg hj]

/-- Sets the entry of a name. A name that is already there keeps its place, a new one comes last. -/
def insert (t : Table α) (name : String) (value : α) : Table α :=
  match h : t.index[name]? with
  | some i => ⟨t.items.setIfInBounds i (name, value), t.index, t.agrees_set value h⟩
  | none =>
    let place := t.items.size
    ⟨t.items.push (name, value), t.index.insert name place, t.agrees_push value h⟩

def ofList (entries : List (String × α)) : Table α :=
  entries.foldl (fun t (name, value) => t.insert name value) ∅

def erase (t : Table α) (name : String) : Table α :=
  ofList (t.entries.filter (·.1 ≠ name))

def names (t : Table α) : List String :=
  t.entries.map (·.1)

def size (t : Table α) : Nat :=
  t.items.size

def isEmpty (t : Table α) : Bool :=
  t.items.isEmpty

theorem find?_eq_some_iff (t : Table α) (name : String) (value : α) :
    t.find? name = some value ↔ ∃ i : Nat, t.items[i]? = some (name, value) := by
  unfold find?
  constructor
  · intro h
    split at h
    · rename_i i hi
      obtain ⟨v, hv⟩ := (t.agrees name i).1 hi
      rw [hv] at h
      exact ⟨i, by rw [hv, ← Option.some.inj h]⟩
    · cases h
  · rintro ⟨i, hi⟩
    rw [(t.agrees name i).2 ⟨value, hi⟩]
    simp [hi]

theorem mem_entries_iff (t : Table α) (name : String) (value : α) :
    (name, value) ∈ t.entries ↔ t.find? name = some value := by
  rw [find?_eq_some_iff, entries, List.mem_iff_getElem?]
  simp only [Array.getElem?_toList]

theorem mem_names_iff (t : Table α) (name : String) :
    name ∈ t.names ↔ (t.find? name).isSome = true := by
  rw [names, List.mem_map, Option.isSome_iff_exists]
  constructor
  · rintro ⟨⟨_, value⟩, hmem, rfl⟩
    exact ⟨value, (t.mem_entries_iff _ value).1 hmem⟩
  · rintro ⟨value, hvalue⟩
    exact ⟨(name, value), (t.mem_entries_iff name value).2 hvalue, rfl⟩

/-- No name has two places. -/
theorem nodup_names (t : Table α) : t.names.Nodup := by
  rw [List.Nodup, List.pairwise_iff_getElem]
  intro i j hi hj hij heq
  have hplace : ∀ (k : Nat) (hk : k < t.names.length), t.index[t.names[k]]? = some k := by
    intro k hk
    have hsize : k < t.items.size := by simpa [names, entries] using hk
    apply (t.agrees _ k).2
    exact ⟨t.items[k].2, by simp [names, entries, Array.getElem?_eq_getElem hsize]⟩
  have hsame := hplace i hi
  rw [heq, hplace j hj] at hsame
  cases hsame
  exact Nat.lt_irrefl _ hij

theorem find?_insert (t : Table α) (name other : String) (value : α) :
    (t.insert name value).find? other = if name = other then some value else t.find? other := by
  unfold insert
  split
  · rename_i i hi
    obtain ⟨old, hold⟩ := (t.agrees name i).1 hi
    obtain ⟨hlt, -⟩ := Array.getElem?_eq_some_iff.1 hold
    by_cases hname : name = other
    · subst hname
      simp [find?, hi, hlt]
    · rw [if_neg hname]
      unfold find?
      dsimp only
      split
      · rename_i j hj
        have hij : i ≠ j := by
          rintro rfl
          obtain ⟨v, hv⟩ := (t.agrees other i).1 hj
          rw [hold] at hv
          exact hname (Prod.mk.inj (Option.some.inj hv)).1
        simp [hij]
      · rfl
  · rename_i hnone
    by_cases hname : name = other
    · subst hname
      simp [find?]
    · rw [if_neg hname]
      unfold find?
      dsimp only
      rw [Std.TreeMap.getElem?_insert,
        if_neg (fun heq => hname (Std.LawfulEqCmp.eq_of_compare heq))]
      split
      · rename_i j hj
        obtain ⟨v, hv⟩ := (t.agrees other j).1 hj
        obtain ⟨hlt, -⟩ := Array.getElem?_eq_some_iff.1 hv
        rw [Array.getElem?_push, if_neg (Nat.ne_of_lt hlt)]
      · rfl

theorem names_insert (t : Table α) (name : String) (value : α) :
    (t.insert name value).names =
      if (t.find? name).isSome then t.names else t.names ++ [name] := by
  unfold insert
  split
  · rename_i i hi
    obtain ⟨old, hold⟩ := (t.agrees name i).1 hi
    have hfound : t.find? name = some old := by simp [find?, hi, hold]
    rw [hfound]
    apply List.ext_getElem?
    intro j
    simp only [names, entries, List.getElem?_map, Array.getElem?_toList,
      Array.getElem?_setIfInBounds, Option.isSome_some, if_true]
    by_cases hij : i = j
    · subst hij
      obtain ⟨hlt, heq⟩ := Array.getElem?_eq_some_iff.1 hold
      simp [hlt, heq]
    · simp [hij]
  · rename_i hnone
    simp [find?, hnone, names, entries]

end Table

end Scripting
