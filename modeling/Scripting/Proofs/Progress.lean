import Scripting.Proofs.Account.Statement

/-!
Reading comes to an end, inside the tokens.

A parser that is put in front of any token takes tokens one behind the other, up to the last one at
most. It gives an answer of its own: the bounds that its loops and its nesting have are never used up.
What it reads without an error takes at least one token.

Main statement: `parser_progress`.
-/

namespace Scripting

/-! Where a cursor stands among the tokens. -/

namespace Cursor

variable {tokens : List Token} {c d : Cursor}

/-- The offset of a cursor is the number of its next token. -/
def Indexes (tokens : List Token) (c : Cursor) : Prop :=
  tokens.drop (c.offset tokens.length) = c.next :: c.rest

theorem indexes_iff : c.Indexes tokens ↔ c.next :: c.rest <:+ tokens := by
  have hoffset : c.offset tokens.length = tokens.length - (c.next :: c.rest).length := by
    rw [offset, c.left_eq, List.length_cons]
    omega
  rw [Indexes, hoffset, List.suffix_iff_eq_drop]
  exact eq_comm

theorem Indexes.advance (h : c.Indexes tokens) (hc : c.Ends) : c.advance.Indexes tokens := by
  by_cases hkind : c.next.kind = .eof
  · rwa [advance_of_eof hkind]
  · have hsuffix := indexes_iff.1 h
    rw [(advance_eq hc hkind).1] at hsuffix
    exact indexes_iff.2 ((List.suffix_cons _ _).trans hsuffix)

theorem Before.indexes (hd : c.Before d) (h : c.Indexes tokens) (hc : c.Ends) :
    d.Indexes tokens := by
  obtain ⟨count, rfl⟩ := hd
  induction count generalizing c with
  | zero => exact h
  | succ count ih => exact ih (h.advance hc) hc.advance

/-- Of two cursors the one that has more tokens left stands in front. -/
theorem offset_lt_of_left_lt (h : c.Indexes tokens) (hleft : d.left < c.left) :
    c.offset tokens.length < d.offset tokens.length := by
  have hlength := (indexes_iff.1 h).length_le
  rw [List.length_cons, ← c.left_eq] at hlength
  unfold offset
  omega

/-- A cursor that is moved stops in front of the last token. -/
theorem left_drop (hc : c.Ends) (count : Nat) : (c.drop count).left = c.left - count := by
  induction count generalizing c with
  | zero => rfl
  | succ count ih =>
    rw [drop, ih hc.advance]
    by_cases hkind : c.next.kind = .eof
    · have hlast : c.rest = [] := by
        have hends := hc
        unfold Ends at hends
        cases hrest : c.rest with
        | nil => rfl
        | cons t rest =>
          rw [hrest] at hends
          exact absurd hkind hends.1
      rw [advance_of_eof hkind, c.left_eq, hlast]
      simp
    · have hleft := (advance_eq hc hkind).2
      omega

theorem ends_ofTokens (h : Token.EndsOnce tokens) : (ofTokens tokens).Ends := by
  cases tokens with
  | nil => exact absurd h id
  | cons t rest => exact h

theorem indexes_ofTokens (h : Token.EndsOnce tokens) : (ofTokens tokens).Indexes tokens := by
  cases tokens with
  | nil => exact absurd h id
  | cons t rest => exact indexes_iff.2 (List.suffix_refl _)

end Cursor

/-! What the answers say about the way to them. -/

/-- A parser was put in front of one of the tokens and has come to an end at `stop`: it stands in front
of one of the tokens, and not before the one it began with. -/
structure Cursor.Halts (tokens : List Token) (start stop : Cursor) : Prop where
  indexes : stop.Indexes tokens
  forward : start.offset tokens.length ≤ stop.offset tokens.length

/-- The reply of a parser that has come to an end. A value is behind at least one token, and a failure
does not say that the parser was cut short. -/
def Reply.Halts {α : Type} (tokens : List Token) (start : Cursor) : Reply α → Prop
  | .ok _ stop => start.Halts tokens stop ∧ start.offset tokens.length < stop.offset tokens.length
  | .fail failure stop => start.Halts tokens stop ∧ failure.Definite

theorem Cursor.Before.halts {tokens : List Token} {c d : Cursor} (hd : c.Before d)
    (h : c.Indexes tokens) (hc : c.Ends) : c.Halts tokens d := by
  constructor
  · exact hd.indexes h hc
  · have hleft := hd.left_le hc
    unfold Cursor.offset
    omega

namespace Parser

variable {tokens : List Token} {g : Grammar} {c : Cursor} {depth limit : Nat}

theorem Proceeds.halts {α : Type} {p : Parser α} (hp : Proceeds c c.left p) (h : c.Indexes tokens)
    (hc : c.Ends) : (p c).Halts tokens c := by
  unfold Proceeds at hp
  cases hreply : p c with
  | ok a stop =>
    rw [hreply] at hp
    exact ⟨hp.1.halts h hc, Cursor.offset_lt_of_left_lt h hp.2⟩
  | fail failure stop =>
    rw [hreply] at hp
    exact ⟨hp.1.halts h hc, hp.2⟩

/-- A node that is no error node is the value of a parser, and so behind at least one token. -/
theorem halts_expressionAt (h : ((Grammar.forCursor c).expression c).Halts tokens c) :
    c.Halts tokens (expressionAt c).2 ∧ ((expressionAt c).1.isError = false →
      c.offset tokens.length < (expressionAt c).2.offset tokens.length) := by
  unfold expressionAt
  cases hreply : (Grammar.forCursor c).expression c with
  | ok e stop =>
    rw [hreply] at h
    exact ⟨h.1, fun _ => h.2⟩
  | fail failure stop =>
    rw [hreply] at h
    exact ⟨h.1, by simp [Expr.isError]⟩

theorem halts_statementAt (h : ((Grammar.forCursor c).statement c).Halts tokens c) :
    c.Halts tokens (statementAt c).2 ∧ ((statementAt c).1.isError = false →
      c.offset tokens.length < (statementAt c).2.offset tokens.length) := by
  unfold statementAt
  cases hreply : (Grammar.forCursor c).statement c with
  | ok s stop =>
    rw [hreply] at h
    exact ⟨h.1, fun _ => h.2⟩
  | fail failure stop =>
    rw [hreply] at h
    exact ⟨h.1, by simp [Stmt.isError]⟩

/-- Every statement takes a token, so there is a turn for each of them and one for the end. -/
theorem proceeds_programFrom (G : g.Serves depth) (hc : c.Ends) (hdepth : c.left < depth)
    (hlimit : c.left < limit) :
    c.Before (programFrom g limit c).2 ∧
      ∀ error ∈ (programFrom g limit c).1.errors, error.message ≠ "Nesting too deep" := by
  induction limit generalizing c with
  | zero => omega
  | succ limit ih =>
    have hbefore := Cursor.before_skipSemicolons c
    have hends := hbefore.ends hc
    have hleft := hbefore.left_le hc
    have hstatement := G.statement hends (by omega)
    unfold Proceeds at hstatement
    simp only [programFrom]
    split
    · exact ⟨hbefore, by simp⟩
    cases hreply : g.statement c.skipSemicolons with
    | fail failure stop =>
      rw [hreply] at hstatement
      exact ⟨hbefore.trans hstatement.1, hstatement.2⟩
    | ok s d =>
      rw [hreply] at hstatement
      obtain ⟨hd, hleft'⟩ := hstatement
      dsimp only
      split
      · exact ⟨hbefore.trans hd, by simp⟩
      · obtain ⟨hstop, herrors⟩ := ih (hd.ends hends) (by omega) (by omega)
        exact ⟨(hbefore.trans hd).trans hstop, herrors⟩

end Parser

/-- The parser comes to an end from every offset of a list of tokens with one `eof`, the last of them,
and all the places it stands at are places of the list. An expression or a statement that is not an
error node has taken at least one token. No answer is the one of a nesting or a loop that was cut short,
with the bounds that the parser sets itself and with any larger ones. A number whose text has a sign,
which the lexer never makes, is refused like any other that is no literal. -/
theorem parser_progress {tokens : List Token} (h : Token.EndsOnce tokens) (start : Nat) :
    let c := (Cursor.ofTokens tokens).drop start
    c.offset tokens.length = min start (tokens.length - 1) ∧
      (∀ count, c.Halts tokens (c.drop count)) ∧
      (∀ depth, 2 * c.left + 2 ≤ depth →
        ((Grammar.ofDepth depth).expression c).Halts tokens c ∧
        ((Grammar.ofDepth depth).statement c).Halts tokens c ∧
        ∀ limit, c.left < limit →
          c.Halts tokens (Parser.programFrom (Grammar.ofDepth depth) limit c).2 ∧
          ∀ error ∈ (Parser.programFrom (Grammar.ofDepth depth) limit c).1.errors,
            error.message ≠ "Nesting too deep") ∧
      (c.Halts tokens (Parser.expressionAt c).2 ∧ ((Parser.expressionAt c).1.isError = false →
        c.offset tokens.length < (Parser.expressionAt c).2.offset tokens.length)) ∧
      (c.Halts tokens (Parser.statementAt c).2 ∧ ((Parser.statementAt c).1.isError = false →
        c.offset tokens.length < (Parser.statementAt c).2.offset tokens.length)) := by
  intro c
  have hfirst := Cursor.ends_ofTokens h
  have hc : c.Ends := Cursor.ends_drop hfirst start
  have hindexes : c.Indexes tokens :=
    Cursor.Before.indexes ⟨start, rfl⟩ (Cursor.indexes_ofTokens h) hfirst
  have hleft : c.left = tokens.length - 1 - start := by
    rw [← Cursor.left_ofTokens h]
    exact Cursor.left_drop hfirst start
  have hdeep (depth : Nat) (hdepth : 2 * c.left + 2 ≤ depth) :
      ((Grammar.ofDepth depth).expression c).Halts tokens c ∧
        ((Grammar.ofDepth depth).statement c).Halts tokens c := by
    have G := (Grammar.serves_ofDepth depth).1
    exact ⟨(G.expression hc (by omega)).halts hindexes hc, (G.statement hc (by omega)).halts hindexes hc⟩
  have hown := hdeep (2 * c.left + 4) (by omega)
  refine ⟨?_, ?_, ?_, Parser.halts_expressionAt hown.1, Parser.halts_statementAt hown.2⟩
  · unfold Cursor.offset
    omega
  · intro count
    exact Cursor.Before.halts ⟨count, rfl⟩ hindexes hc
  · intro depth hdepth
    refine ⟨(hdeep depth hdepth).1, (hdeep depth hdepth).2, ?_⟩
    intro limit hlimit
    have G := (Grammar.serves_ofDepth depth).1
    obtain ⟨hstop, herrors⟩ := Parser.proceeds_programFrom G hc (by omega) hlimit
    exact ⟨hstop.halts hindexes hc, herrors⟩

/-- The tokens of `) x`. -/
def closedName : List Token :=
  [⟨.rightParen, ")", {}⟩, ⟨.identifier, "x", {}⟩, .eof {}]

/-- From its start `) x` is no expression, and behind the `)` it is one up to the end. -/
theorem parser_progress_closedName :
    Token.EndsOnce closedName ∧
      (Cursor.ofTokens closedName).Halts closedName
        (Parser.expressionAt (Cursor.ofTokens closedName)).2 ∧
      (Parser.expressionAt (Cursor.ofTokens closedName)).1.isError = true ∧
      (Parser.expressionAt ((Cursor.ofTokens closedName).drop 1)).1.isError = false ∧
      1 < (Parser.expressionAt ((Cursor.ofTokens closedName).drop 1)).2.offset 3 := by
  have hends : Token.EndsOnce closedName := by
    simp [closedName, Token.EndsOnce, Token.eof]
  have hname : (Parser.expressionAt ((Cursor.ofTokens closedName).drop 1)).1.isError = false := rfl
  have hfirst := (parser_progress hends 0).2.2.2.1.1
  have hsecond := (parser_progress hends 1).2.2.2.1.2 hname
  exact ⟨hends, hfirst, rfl, hname, hsecond⟩

end Scripting
