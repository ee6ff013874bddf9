import Scripting.Proofs.Account.Statement

/-!
What comes of reading a whole text.

Main statement: a text is read to its end, or there is one error, behind statements that are read
(`Parser.verdict_program`).
-/

namespace Scripting.Parser

variable {tokens : List Token} {all taken : List Leaf} {depth : Nat} {g : Grammar} {c : Cursor}

/-- What comes of reading a program from a cursor on. -/
inductive Verdict (tokens : List Token) (all taken : List Leaf) : Program × Cursor → Prop where
  /-- All tokens are read, up to the last one. -/
  | whole {statements : List Stmt} {stop : Cursor} {bound : Nat} (read : ∀ s ∈ statements, s.Read)
      (stands : stop.Stands tokens all bound (taken ++ statements.flatMap Stmt.leaves))
      (ended : stop.next.kind = .eof) : Verdict tokens all taken (⟨statements, []⟩, stop)
  /-- The last statement could not be read. -/
  | unread (statements : List Stmt) {stop : Cursor} {span : Span} {e : ParseError}
      (read : ∀ s ∈ statements, s.Read) (place : ∃ t ∈ tokens, e.span = t.span) :
      Verdict tokens all taken (⟨statements ++ [.error span [e]], [e]⟩, stop)
  /-- The last statement is read, but the `;` behind it is missing. -/
  | unended (statements : List Stmt) {last : Stmt} {stop : Cursor} {e : ParseError}
      (read : ∀ s ∈ statements ++ [last], s.Read) (place : stop.next ∈ tokens)
      (span : e.span = stop.next.span) (kind : stop.next.kind ≠ .semicolon) :
      Verdict tokens all taken (⟨statements ++ [last], [e]⟩, stop)

/-- Every error is at a token. -/
theorem Verdict.place_of_mem {p : Program × Cursor} {e : ParseError} (h : Verdict tokens all taken p)
    (he : e ∈ p.1.errors) : ∃ t ∈ tokens, e.span = t.span := by
  cases h with
  | whole => cases he
  | unread _ _ place =>
    obtain rfl := List.mem_singleton.1 he
    exact place
  | unended _ _ place span =>
    obtain rfl := List.mem_singleton.1 he
    exact ⟨_, place, span⟩

/-- One more statement in front. -/
theorem Verdict.cons {p : Program × Cursor} {s : Stmt} (hs : s.Read)
    (h : Verdict tokens all (taken ++ s.leaves) p) :
    Verdict tokens all taken (⟨s :: p.1.statements, p.1.errors⟩, p.2) := by
  cases h with
  | whole read stands ended =>
    rw [List.append_assoc, ← List.flatMap_cons] at stands
    exact .whole (List.forall_mem_cons.2 ⟨hs, read⟩) stands ended
  | unread statements read place =>
    exact .unread (s :: statements) (List.forall_mem_cons.2 ⟨hs, read⟩) place
  | unended statements read place span kind =>
    exact .unended (s :: statements) (List.forall_mem_cons.2 ⟨hs, read⟩) place span kind

/-- A statement takes a token, so the bound of the loop is not reached. -/
theorem verdict_programFrom (A : g.Accounts tokens all depth) (G : g.Reads) {limit : Nat}
    (hc : c.Stands tokens all limit taken) (hdepth : limit ≤ depth) (hlexed : c.WellLexed) :
    Verdict tokens all taken (programFrom g limit c) := by
  induction limit generalizing c taken with
  | zero => exact absurd hc.left (Nat.not_lt_zero _)
  | succ limit ih =>
    have hc := hc.skipSemicolons
    have haccount := A.statement hc hdepth
    have hread := G.statement hlexed.skipSemicolons
    unfold Accounts Answers at haccount
    unfold ReadsStmt Yields at hread
    simp only [programFrom]
    by_cases heof : c.skipSemicolons.next.kind = .eof
    · rw [if_pos heof]
      rw [← List.append_nil taken] at hc
      exact .whole (by simp) hc heof
    rw [if_neg heof]
    cases hs : g.statement c.skipSemicolons with
    | fail failure stop =>
      rw [hs] at haccount
      obtain ⟨-, -, t, ht, message, herrors⟩ := haccount
      simp only [herrors]
      exact .unread [] (by simp) ⟨t, ht, rfl⟩
    | ok s c' =>
      rw [hs] at haccount hread
      obtain ⟨-, hstands⟩ := haccount
      obtain ⟨hlexed', hs, -⟩ := hread
      dsimp only
      split
      · rename_i hopen
        simp only [Bool.and_eq_true, decide_eq_true_eq] at hopen
        exact .unended [] (by simpa using hs) hstands.next_mem rfl hopen.1.2
      · exact (ih hstands (by omega) hlexed').cons hs

theorem verdict_program {source : String} (h : tokenize source = .ok tokens) :
    Verdict tokens (Token.leavesFrom false tokens) [] (program tokens) := by
  have hstands := Cursor.stands_ofTokens h
  have hlexed : (Cursor.ofTokens tokens).WellLexed := by
    intro t ht
    exact wellLexed_tokensFrom h t (hstands.suffix.subset ht)
  have hleft := Cursor.left_ofTokens (endsOnce_tokensFrom h)
  have hlength := hstands.left
  exact verdict_programFrom (Grammar.accounts_ofDepth _ _ _).1 (Grammar.reads_ofDepth _) hstands.weaken
    (by omega) hlexed

end Scripting.Parser
