import Scripting.Proofs.RoundTrip.Spelling
import Scripting.Proofs.RoundTrip.Statement

/-!
Programs of legible statements are read back: from their shapes, by a grammar that is deep enough, and
so from their texts.
-/

namespace Scripting

variable {statements : List Stmt}

theorem Expr.Legible.content_ne_nil {e : Expr} (h : e.Legible) : e.content ≠ [] := by
  cases e with
  | unary _ op operand =>
    rw [Expr.content]
    split <;> simp
  | binary | assign => simp [Expr.content]
  | _ => exact h.shapes_ne_nil

/-- Every level of nesting takes at least one token. -/
theorem Grammar.rebuilds_ofDepth (n : Nat) : (Grammar.ofDepth n).Rebuilds n := by
  induction n with
  | zero =>
    refine ⟨?_, ?_, ?_, ?_⟩
    · intro e t more he hn
      exact absurd (List.length_eq_zero_iff.1 (by omega)) he.shapes_ne_nil
    · intro e t more he hn
      exact absurd (List.length_eq_zero_iff.1 (by omega)) he.content_ne_nil
    · intro e t more he hn
      exact absurd (List.length_eq_zero_iff.1 (by omega)) he.shapes_ne_nil
    · intro s rest _ hn
      omega
  | succ n ih =>
    refine ⟨Parser.takes_assignment ih, Parser.takes_assignment_content ih, Parser.takes_unary ih,
      fun hs hn hrest hends => ?_⟩
    exact Parser.takes_statement fun _ => Parser.takes_statementOf ih hs (by omega) hrest hends

theorem Stmt.length_shapes_le (s : Stmt) (h : s ∈ statements) :
    s.shapes.length ≤ (statements.flatMap Stmt.closedShapes).length := by
  have hmem : s.closedShapes ∈ statements.map Stmt.closedShapes := List.mem_map_of_mem h
  have hsublist := (List.sublist_flatten_of_mem hmem).length_le
  rw [Stmt.closedShapes, List.length_append, ← List.flatMap_def] at hsublist
  omega

/-- There are no more statements than tokens. -/
theorem Stmt.Legible.length_le (h : ∀ s ∈ statements, s.Legible) :
    statements.length ≤ (statements.flatMap Stmt.closedShapes).length := by
  induction statements with
  | nil => simp
  | cons s statements ih =>
    have hs := h s (by simp)
    have hpos := hs.length_shapes_pos
    have hrest := ih fun s hs => h s (by simp [hs])
    simp only [List.flatMap_cons, Stmt.closedShapes, List.length_append, List.length_cons] at hrest ⊢
    omega

namespace Parser

/-- The tokens from a statement of a program on, the end of the text included. -/
theorem head?_flatMap_shapes (h : ∀ s ∈ statements, s.Legible) :
    ∃ t, (statements.flatMap Stmt.closedShapes ++ [Shape.eof]).head? = some t ∧
      t.kind ≠ .semicolon ∧ t.kind ≠ .keyword .elseBranch := by
  cases statements with
  | nil => exact ⟨.eof, rfl, by simp [Shape.eof], by simp [Shape.eof]⟩
  | cons s statements =>
    have hs := h s (by simp)
    obtain ⟨t, ht, hbegins⟩ := s.head?_shapes hs.isRead hs.inside
    refine ⟨t, by simp [Stmt.closedShapes, ht], ?_, ?_⟩ <;>
    · intro hkind
      rw [hkind] at hbegins
      cases hbegins

theorem programFrom_shapes {g : Grammar} {n : Nat} (G : g.Rebuilds n)
    {limit : Nat} {c : Cursor} (h : ∀ s ∈ statements, s.Legible)
    (hn : ∀ s ∈ statements, s.shapes.length < n) (hlimit : statements.length < limit)
    (hc : c.skipSemicolons.shapes =
      statements.flatMap Stmt.closedShapes ++ [Shape.eof]) :
    (programFrom g limit c).1.bare = ⟨statements.map Stmt.bare, []⟩ := by
  induction statements generalizing limit c with
  | nil =>
    obtain _ | limit := limit
    · simp at hlimit
    have heof : c.skipSemicolons.next.kind = .eof := by
      simp only [Cursor.shapes, List.flatMap_nil, List.nil_append, List.cons.injEq] at hc
      exact congrArg Shape.kind hc.1
    simp [programFrom, heof, Program.bare]
  | cons s statements ih =>
    obtain _ | limit := limit
    · simp at hlimit
    have hs := h s (by simp)
    have hrest : ∀ s ∈ statements, s.Legible := fun s hs => h s (by simp [hs])
    obtain ⟨t, ht, hbegins⟩ := s.head?_shapes hs.isRead hs.inside
    obtain ⟨u, hu, hsemicolon, helse⟩ := head?_flatMap_shapes hrest
    rw [List.flatMap_cons, Stmt.closedShapes, List.append_assoc, List.append_assoc] at hc
    obtain ⟨s', c', hread, hc', hs'⟩ := G.statement hs (hn s (by simp)) (by simp)
      (Stmt.endsBefore_of_head? hu helse) c.skipSemicolons hc
    have hrequires : s'.requiresSemicolon = s.requiresSemicolon := by
      rw [← s'.requiresSemicolon_bare, hs', s.requiresSemicolon_bare]
    have hnext : c.skipSemicolons.next.kind ≠ .eof := by
      have hhead : c.skipSemicolons.shapes.head? = some t := by
        rw [hc]
        simp [ht]
      rw [Cursor.shapes, List.head?_cons, Option.some.injEq] at hhead
      intro hkind
      rw [← hhead, Token.shape, hkind] at hbegins
      cases hbegins
    -- the next statement is read from behind the `;`
    have hbehind : c'.skipSemicolons.shapes =
        statements.flatMap Stmt.closedShapes ++ [Shape.eof] ∧
        (s.requiresSemicolon = true → c'.next.kind = .semicolon) := by
      unfold Stmt.terminatorShapes at hc'
      split at hc'
      · obtain ⟨more, hmore⟩ := List.head?_eq_some_iff.1 hu
        rw [hmore] at hc' ⊢
        refine ⟨Cursor.shapes_skipSemicolons hc' hsemicolon, fun _ => ?_⟩
        simp only [Cursor.shapes, List.cons_append, List.cons.injEq] at hc'
        exact congrArg Shape.kind hc'.1
      · refine ⟨?_, fun h => absurd h ‹_›⟩
        rw [Cursor.skipSemicolons_of_ne u (by rw [hc']; exact hu) hsemicolon]
        exact hc'
    have hdone : (s'.requiresSemicolon && c'.next.kind ≠ .semicolon && c'.next.kind ≠ .eof) =
        false := by
      rw [hrequires]
      cases hs : s.requiresSemicolon with
      | false => rfl
      | true => simp [hbehind.2 hs]
    have hrec := ih hrest (fun s hs => hn s (by simp [hs])) (by simp at hlimit; omega) hbehind.1
    rw [Program.bare, Program.mk.injEq] at hrec
    simp only [programFrom, if_neg hnext, hread, hdone, Bool.false_eq_true, if_false, Program.bare,
      List.map_cons, hs', hrec]

end Parser

/-- The text of a program is read back, if all its statements are legible. -/
theorem Program.reread {program : Program} (h : ∀ s ∈ program.statements, s.Legible) :
    ∃ again, parseProgram program.text = .ok again ∧
      again.bare = ⟨program.statements.map Stmt.bare, []⟩ := by
  obtain ⟨tokens, htokens, hshapes⟩ :=
    Program.spells h (program.text.toList.length + 1) {} (Nat.lt_succ_self _)
  refine ⟨(Parser.program tokens).1, ?_, ?_⟩
  · have htokenize : tokenize program.text = .ok tokens := htokens
    rw [parseProgram, htokenize]
  have hcursor : (Cursor.ofTokens tokens).shapes = program.shapes ++ [Shape.eof] := by
    cases tokens with
    | nil => simp at hshapes
    | cons token tokens => exact hshapes
  have hleft := (Cursor.ofTokens tokens).length_shapes
  have hlength := congrArg List.length hshapes
  rw [hcursor, List.length_append, List.length_singleton] at hleft
  rw [List.length_map, List.length_append, List.length_singleton] at hlength
  obtain ⟨u, hu, hsemicolon, -⟩ := Parser.head?_flatMap_shapes h
  refine Parser.programFrom_shapes (Grammar.rebuilds_ofDepth _) h ?_ ?_ ?_
  · intro s hs
    have hle := s.length_shapes_le hs
    rw [Program.shapes] at hleft
    omega
  · have hle := Stmt.Legible.length_le h
    rw [Program.shapes] at hlength
    omega
  · rw [Cursor.skipSemicolons_of_ne u (by rw [hcursor]; exact hu) hsemicolon]
    exact hcursor

end Scripting
