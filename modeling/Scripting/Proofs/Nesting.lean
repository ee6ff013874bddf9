import Scripting.Proofs.Nesting.Production
import Scripting.Proofs.RoundTrip

/-!
The spans of a tree nest as its nodes do.

The span of a node starts with a token and ends with a token. It holds the spans of the nodes inside it,
which come one behind the other, as the statements of a program do. This is so for statements,
expressions and functions at any depth, and also for a program whose reading stopped at an error.

Main statement: `spans_nest`.
-/

namespace Scripting

/-- The spans of the nodes of a program start and end with tokens, hold those of the nodes inside, and
come in the order of the source. -/
theorem spans_nest {source : String} {program : Program} (h : parseProgram source = .ok program) :
    ∃ tokens, tokenize source = .ok tokens ∧
      (∀ phrase, program.Contains phrase → phrase.Fits tokens) ∧
      program.statements.Pairwise fun s next => s.span.Precedes next.span := by
  rw [parseProgram] at h
  cases htokens : tokenize source with
  | error d =>
    rw [htokens] at h
    cases h
  | ok tokens =>
    rw [htokens] at h
    cases h
    have T := Token.lined_tokenize htokens
    have hinside := Cursor.inside_ofTokens htokens
    obtain ⟨m, hrow⟩ := Parser.exists_row_program htokens
    refine ⟨tokens, rfl, ?_, ?_⟩
    · intro phrase hphrase
      apply Phrase.Nested.fits
      apply hphrase.nested
      intro s hs
      exact hrow.nested _ (List.mem_map_of_mem hs)
    · have hordered := hrow.ordered hinside T
      rw [List.pairwise_map] at hordered
      exact hordered

/-- A text without errors, in which a function stands inside the value of a declaration and a statement
inside the `for` of its body. -/
theorem spans_nest_declaration :
    ∃ program tokens,
      parseProgram "let f = function (n) \x7b for (;;) (n)++; \x7d; f (2) // done" = .ok program ∧
      program.isError = false ∧ program.statements.length = 2 ∧
      tokenize "let f = function (n) \x7b for (;;) (n)++; \x7d; f (2) // done" = .ok tokens ∧
      (∀ phrase, program.Contains phrase → phrase.Fits tokens) ∧
      program.statements.Pairwise fun s next => s.span.Precedes next.span := by
  have hcheck : (parseProgram
      "let f = function (n) \x7b for (;;) (n)++; \x7d; f (2) // done").toOption.any
      (fun p => !p.isError && p.statements.length == 2) = true := by decide +kernel
  obtain ⟨program, hprogram, hread⟩ := exists_program hcheck
  simp only [Bool.and_eq_true, Bool.not_eq_true', beq_iff_eq] at hread
  obtain ⟨tokens, htokens, hfits, hordered⟩ := spans_nest hprogram
  exact ⟨program, tokens, hprogram, hread.1, hread.2, htokens, hfits, hordered⟩

end Scripting
