import Scripting.Proofs.Excerpt.Scan
import Scripting.Proofs.Nesting.Production
import Scripting.Proofs.RoundTrip
import Scripting.Proofs.Sequence.Program

/-!
The span of an expression covers the expression and nothing else.

The text that the span of an expression covers can be read on its own. It is an expression, and up to
spans the same one: also for a left operand, the callee of a call, the target of an assignment or an
expression in the body of a function, and with comments and blanks in the text.

Main statement: `spans_exact`.
-/

namespace Scripting

/-- The text that a span covers. -/
def Span.excerpt (s : Span) (source : String) : String :=
  String.ofList (slice s.start.offset s.endOffset source.toList)

namespace Cursor

variable {tokens : List Token} {c m : Cursor}

/-- The tokens between two cursors; the second one stands behind the last of them. -/
theorem Before.segment (h : c.Before m) (hc : c.Ends) (hleft : m.left < c.left) :
    ∃ segment, c.rest = segment ++ m.next :: m.rest ∧
      m.last = (segment.getLastD c.next).span := by
  obtain ⟨count, rfl⟩ := h
  induction count generalizing c with
  | zero => exact absurd hleft (Nat.lt_irrefl _)
  | succ count ih =>
    have hkind := kind_ne_eof_of_left hc (by omega)
    obtain ⟨hrest, hstep⟩ := advance_eq hc hkind
    have hmore : c.advance.Before (c.advance.drop count) := ⟨count, rfl⟩
    have hle := hmore.left_le hc.advance
    rw [drop] at hleft ⊢
    by_cases hone : (c.advance.drop count).left = c.advance.left
    · refine ⟨[], ?_, ?_⟩
      · rw [hmore.eq_of_left hc.advance hone]
        exact hrest
      · rw [hmore.eq_of_left hc.advance hone]
        exact last_advance hc hkind
    · obtain ⟨segment, hsegment, hlast⟩ := ih hc.advance (by omega)
      refine ⟨c.advance.next :: segment, ?_, ?_⟩
      · rw [hrest, hsegment]
        rfl
      · rw [hlast, List.getLastD_cons]

end Cursor

theorem Expr.Read.isError {e : Expr} (h : e.Read) : e.isError = false := by
  cases e with
  | error => cases h
  | _ => rfl

/-- A cited expression is read again from the text that its span covers. -/
theorem Expr.Cited.excerpt {source : String} {tokens : List Token} {e : Expr}
    (h : e.Cited tokens) (htokens : tokenize source = .ok tokens) :
    ∃ excerpt e' stop, tokenize (e.span.excerpt source) = .ok excerpt ∧
      Parser.expressionAt (Cursor.ofTokens excerpt) = (e', stop) ∧ stop.next.kind = .eof ∧
      e'.isError = false ∧ e'.bare = e.bare := by
  obtain ⟨c, m, hc, hbefore, hcovers, hreads⟩ := h
  have hleft := hreads.left_lt hc.ends hbefore
  obtain ⟨segment, hrest, hlast⟩ := hbefore.segment hc.ends hleft
  obtain ⟨front, hfront⟩ := Cursor.indexes_iff.1 hc.indexes
  have hsplit : tokens = front ++ (c.next :: segment ++ m.next :: m.rest) := by
    rw [← hfront, hrest]
    rfl
  rw [hsplit] at htokens
  obtain ⟨excerpt, hexcerpt, hshapes⟩ := tokenize_slice htokens (by simp)
  rw [← hcovers.start, ← hlast, ← hcovers.stop] at hexcerpt
  -- the tokens of the excerpt are those of the source, cut off behind the expression
  have hne : excerpt ≠ [] := by
    rintro rfl
    simp at hshapes
  have htrims : c.Trims (.off m.left) (Cursor.ofTokens excerpt) := by
    apply Cursor.Trims.within (Int.ofNat_le.2 (Nat.le_of_lt hleft)) hc.ends
    rw [Cursor.map_shape_ofTokens hne, hshapes]
    have hcount : (c.left - (Cut.off m.left).border).toNat = (c.next :: segment).length := by
      change (c.left - m.left : Int).toNat = _
      have hlength := congrArg List.length hrest
      rw [← c.left_eq, List.length_append, List.length_cons, ← m.left_eq] at hlength
      rw [List.length_cons]
      omega
    rw [hcount, Cursor.shapes, hrest]
    simp [Cut.off]
  have hends := Cursor.ends_ofTokens (endsOnce_tokensFrom hexcerpt)
  obtain ⟨e', stop, hreply, hstop, hbare⟩ := hreads.expression htrims hends
  have hyields : Parser.Yields (Cursor.ofTokens excerpt) (fun e _ => e.Read)
      (Grammar.forCursor (Cursor.ofTokens excerpt)).expression :=
    (Grammar.reads_ofDepth _).expression (Cursor.wellLexed_ofTokens hexcerpt)
  rw [Parser.Yields, hreply] at hyields
  exact ⟨excerpt, e', stop, hexcerpt, by rw [Parser.expressionAt, hreply], hstop,
    hyields.2.isError, hbare⟩

/-- The text that the span of an expression covers is read as this expression, up to its end. -/
theorem spans_exact {source : String} {program : Program} (h : parseProgram source = .ok program)
    {e : Expr} (he : e ∈ program.nodes) :
    ∃ tokens e' stop, tokenize (e.span.excerpt source) = .ok tokens ∧
      Parser.expressionAt (Cursor.ofTokens tokens) = (e', stop) ∧ stop.next.kind = .eof ∧
      e'.isError = false ∧ e'.bare = e.bare := by
  rw [parseProgram] at h
  cases htokens : tokenize source with
  | error d =>
    rw [htokens] at h
    cases h
  | ok tokens =>
    rw [htokens] at h
    cases h
    obtain ⟨m, hrow⟩ := Parser.exists_row_program htokens
    obtain ⟨s, hs, he⟩ := List.mem_flatMap.1 he
    have hnested := hrow.nested _ (List.mem_map_of_mem hs)
    exact (hnested.cited_of_mem e he).excerpt htokens

/-- The left operand of a product in the body of a function, with a comment inside. -/
theorem spans_exact_operand :
    ∃ program, parseProgram "function f(n) \x7b return (n // once\n + n) * -2 \x7d" = .ok program ∧
      ∃ e ∈ program.nodes,
        e.span.excerpt "function f(n) \x7b return (n // once\n + n) * -2 \x7d" = "(n // once\n + n)" ∧
        ∃ tokens e' stop, tokenize "(n // once\n + n)" = .ok tokens ∧
          Parser.expressionAt (Cursor.ofTokens tokens) = (e', stop) ∧ stop.next.kind = .eof ∧
          e'.isError = false ∧ e'.bare = e.bare := by
  have hcheck : (parseProgram "function f(n) \x7b return (n // once\n + n) * -2 \x7d").toOption.any
      (·.nodes.any fun e => e.span.excerpt "function f(n) \x7b return (n // once\n + n) * -2 \x7d" ==
        "(n // once\n + n)") = true := by decide +kernel
  obtain ⟨program, hprogram, hnodes⟩ := exists_program hcheck
  obtain ⟨e, he, hexcerpt⟩ := List.any_eq_true.1 hnodes
  rw [beq_iff_eq] at hexcerpt
  have hread := spans_exact hprogram he
  rw [hexcerpt] at hread
  exact ⟨program, hprogram, e, he, hexcerpt, hread⟩

end Scripting
