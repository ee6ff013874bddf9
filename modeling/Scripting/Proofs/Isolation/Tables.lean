import Scripting.Table

/-!
Two tables with the same names in the same order, and entries that are related one by one.
-/

namespace Scripting.Table

variable {α β : Type}

/-- The tables have the same names in the same places, and related entries. -/
def Related (p : α → β → Prop) (t : Table α) (t' : Table β) : Prop :=
  ∀ k : Nat, Option.Rel (fun m m' => m.1 = m'.1 ∧ p m.2 m'.2) t.items[k]? t'.items[k]?

variable {p : α → β → Prop} {t : Table α} {t' : Table β}

theorem related_empty (p : α → β → Prop) : Related p ∅ ∅ :=
  fun _ => .none

theorem Related.mono {q : α → β → Prop} (h : Related p t t') (hq : ∀ a b, p a b → q a b) :
    Related q t t' := by
  intro k
  have hk := h k
  generalize t.items[k]? = m at hk
  generalize t'.items[k]? = m' at hk
  cases hk with
  | some hm => exact .some ⟨hm.1, hq _ _ hm.2⟩
  | none => exact .none

/-- What stands at a place in one table stands there in the other. -/
theorem Related.getElem? (h : Related p t t') {k : Nat} {name : String} {a : α}
    (ha : t.items[k]? = some (name, a)) : ∃ b, t'.items[k]? = some (name, b) ∧ p a b := by
  have hk := h k
  rw [ha] at hk
  generalize t'.items[k]? = m' at hk
  cases hk with
  | @some _ m' hm =>
    obtain ⟨name', b⟩ := m'
    obtain ⟨rfl, hp⟩ := hm
    exact ⟨b, rfl, hp⟩

theorem Related.getElem?_eq_none (h : Related p t t') (k : Nat) :
    t.items[k]? = none ↔ t'.items[k]? = none := by
  have hk := h k
  generalize t.items[k]? = m at hk ⊢
  generalize t'.items[k]? = m' at hk ⊢
  cases hk with
  | some _ => simp
  | none => simp

theorem Related.size_eq (h : Related p t t') : t.items.size = t'.items.size := by
  have hle := h.getElem?_eq_none t.items.size
  have hge := h.getElem?_eq_none t'.items.size
  simp only [Array.getElem?_eq_none_iff] at hle hge
  omega

theorem Related.index_eq (h : Related p t t') (name : String) :
    t.index[name]? = t'.index[name]? := by
  apply Option.ext
  intro k
  rw [t.agrees, t'.agrees]
  constructor
  · rintro ⟨a, ha⟩
    obtain ⟨b, hb, -⟩ := h.getElem? ha
    exact ⟨b, hb⟩
  · rintro ⟨b, hb⟩
    have hk := h k
    rw [hb] at hk
    generalize t.items[k]? = m at hk
    cases hk with
    | @some m _ hm =>
      obtain ⟨name', a⟩ := m
      obtain rfl : name' = name := hm.1
      exact ⟨a, rfl⟩

theorem Related.find? (h : Related p t t') (name : String) :
    Option.Rel p (t.find? name) (t'.find? name) := by
  unfold Table.find?
  rw [← h.index_eq name]
  cases t.index[name]? with
  | none => exact .none
  | some k =>
    have hk := h k
    dsimp only
    generalize t.items[k]? = m at hk ⊢
    generalize t'.items[k]? = m' at hk ⊢
    cases hk with
    | some hm => exact .some hm.2
    | none => exact .none

theorem items_insert_of_some {name : String} {i : Nat} (hi : t.index[name]? = some i) (a : α) :
    (t.insert name a).items = t.items.setIfInBounds i (name, a) := by
  unfold insert
  split
  · rename_i j hj
    rw [hi] at hj
    cases hj
    rfl
  · rename_i hnone
    rw [hi] at hnone
    cases hnone

theorem items_insert_of_none {name : String} (hname : t.index[name]? = none) (a : α) :
    (t.insert name a).items = t.items.push (name, a) := by
  unfold insert
  split
  · rename_i j hj
    rw [hname] at hj
    cases hj
  · rfl

/-- The same name is set in both tables. -/
theorem Related.insert (h : Related p t t') (name : String) {a : α} {b : β} (hp : p a b) :
    Related p (t.insert name a) (t'.insert name b) := by
  have hindex := h.index_eq name
  have hsize := h.size_eq
  intro k
  have hk := h k
  cases hi : t.index[name]? with
  | none =>
    rw [items_insert_of_none hi, items_insert_of_none (hindex ▸ hi), Array.getElem?_push,
      Array.getElem?_push, ← hsize]
    split
    · exact .some ⟨rfl, hp⟩
    · exact hk
  | some i =>
    rw [items_insert_of_some hi, items_insert_of_some (hindex ▸ hi), Array.getElem?_setIfInBounds,
      Array.getElem?_setIfInBounds, ← hsize]
    split
    · split
      · exact .some ⟨rfl, hp⟩
      · exact .none
    · exact hk

/-- What depends on the names and on what related entries have in common is the same. -/
theorem Related.map_entries {γ : Type} (h : Related p t t') {f : String × α → γ}
    {g : String × β → γ} (hfg : ∀ name a b, p a b → f (name, a) = g (name, b)) :
    t.entries.map f = t'.entries.map g := by
  apply List.ext_getElem?
  intro k
  have hk := h k
  simp only [entries, List.getElem?_map, Array.getElem?_toList]
  generalize t.items[k]? = m at hk ⊢
  generalize t'.items[k]? = m' at hk ⊢
  cases hk with
  | none => rfl
  | @some m m' hm =>
    obtain ⟨name, a⟩ := m
    obtain ⟨name', b⟩ := m'
    obtain ⟨rfl, hp⟩ := hm
    exact congrArg some (hfg name a b hp)

/-- Tables whose entries look the same, name by name. -/
theorem related_of_map_entries {γ : Type} {f : α → γ} {g : β → γ}
    (h : t.entries.map (fun m => (m.1, f m.2)) = t'.entries.map (fun m => (m.1, g m.2))) :
    Related (fun a b => f a = g b ∧ ∃ name, t.find? name = some a ∧ t'.find? name = some b) t t' := by
  intro k
  have hk := congrArg (·[k]?) h
  simp only [entries, List.getElem?_map, Array.getElem?_toList] at hk
  cases ha : t.items[k]? with
  | none =>
    cases hb : t'.items[k]? with
    | none => exact .none
    | some m' =>
      rw [ha, hb] at hk
      cases hk
  | some m =>
    cases hb : t'.items[k]? with
    | none =>
      rw [ha, hb] at hk
      cases hk
    | some m' =>
      rw [ha, hb] at hk
      simp only [Option.map_some, Option.some.injEq, Prod.mk.injEq] at hk
      obtain ⟨hname, hfg⟩ := hk
      refine .some ⟨hname, hfg, m.1, ?_, ?_⟩
      · exact (t.find?_eq_some_iff _ _).2 ⟨k, ha⟩
      · exact (t'.find?_eq_some_iff _ _).2 ⟨k, by rw [hname]; exact hb⟩

end Scripting.Table
