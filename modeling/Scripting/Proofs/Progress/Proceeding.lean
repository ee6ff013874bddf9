import Scripting.Proofs.Account.Leaf

/-!
How far parsers go.

From a cursor that stands in front of a single `eof` a parser only takes tokens, one behind the other.
The bounds of its loops are never used up, so no reply is the one of a loop that was cut short.
-/

namespace Scripting

/-! The places that can be reached from a cursor. -/

namespace Cursor

variable {c d e : Cursor}

/-- The next `eof` is the last token. -/
def Ends (c : Cursor) : Prop :=
  Token.EndsOnce (c.next :: c.rest)

/-- Taking tokens from `c` on leads to `d`. -/
def Before (c d : Cursor) : Prop :=
  ∃ count, d = c.drop count

theorem drop_add (c : Cursor) (m n : Nat) : c.drop (m + n) = (c.drop m).drop n := by
  induction m generalizing c with
  | zero => rw [Nat.zero_add, drop]
  | succ m ih =>
    rw [Nat.succ_add, drop, drop]
    exact ih c.advance

theorem Before.refl (c : Cursor) : c.Before c :=
  ⟨0, rfl⟩

theorem Before.trans (hd : c.Before d) (he : d.Before e) : c.Before e := by
  obtain ⟨m, rfl⟩ := hd
  obtain ⟨n, rfl⟩ := he
  exact ⟨m + n, (drop_add c m n).symm⟩

theorem before_advance (c : Cursor) : c.Before c.advance :=
  ⟨1, rfl⟩

theorem before_skipSemicolons (c : Cursor) : c.Before c.skipSemicolons := by
  unfold skipSemicolons
  generalize c.left = count
  induction count generalizing c with
  | zero => exact .refl c
  | succ count ih =>
    rw [skipSemicolonsUpTo]
    split
    · exact (before_advance c).trans (ih c.advance)
    · exact .refl c

/-- The last token is not passed. -/
theorem advance_of_eof (hkind : c.next.kind = .eof) : c.advance = c := by
  rw [Cursor.advance]
  split
  · rfl
  · rw [if_pos hkind]

theorem left_advance (hc : c.Ends) (hkind : c.next.kind ≠ .eof) : c.advance.left < c.left := by
  have hleft := (advance_eq hc hkind).2
  omega

theorem Ends.advance (hc : c.Ends) : c.advance.Ends := by
  by_cases hkind : c.next.kind = .eof
  · rwa [advance_of_eof hkind]
  · have hends := hc
    rw [Ends, (advance_eq hc hkind).1] at hends
    exact hends.2

theorem left_advance_le (hc : c.Ends) : c.advance.left ≤ c.left := by
  by_cases hkind : c.next.kind = .eof
  · exact Nat.le_of_eq (by rw [advance_of_eof hkind])
  · exact Nat.le_of_lt (left_advance hc hkind)

theorem ends_drop (hc : c.Ends) (count : Nat) : (c.drop count).Ends := by
  induction count generalizing c with
  | zero => exact hc
  | succ count ih => exact ih hc.advance

theorem Before.ends (h : c.Before d) (hc : c.Ends) : d.Ends := by
  obtain ⟨count, rfl⟩ := h
  exact ends_drop hc count

theorem Before.left_le (h : c.Before d) (hc : c.Ends) : d.left ≤ c.left := by
  obtain ⟨count, rfl⟩ := h
  induction count generalizing c with
  | zero => exact Nat.le_refl _
  | succ count ih => exact Nat.le_trans (ih hc.advance) (left_advance_le hc)

end Cursor

/-- The failure is not the one of a loop or a nesting that was cut short. -/
def Failure.Definite (e : Failure) : Prop :=
  ∀ error ∈ e.errors, error.message ≠ "Nesting too deep"

/-- A reply from `c` on whose cursor is reached from `c`. Behind a value fewer than `bound` tokens
follow the next one; a failure is definite. -/
def Reply.Proceeds {α : Type} (c : Cursor) (bound : Nat) : Reply α → Prop
  | .ok _ d => c.Before d ∧ d.left < bound
  | .fail e d => c.Before d ∧ e.Definite

namespace Parser

variable {α : Type}

/-- From `c` on a parser goes forward, and behind a value fewer than `bound` tokens follow the next
one. -/
def Proceeds (c : Cursor) (bound : Nat) (p : Parser α) : Prop :=
  (p c).Proceeds c bound

end Parser

end Scripting
