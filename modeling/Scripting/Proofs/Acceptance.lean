import Scripting.Proofs.Acceptance.Alarm
import Scripting.Proofs.Account.Program

/-!
What an empty list of errors means, and what any other.

Main statement: a text is read whole and its program has no error node at any depth, or there is
exactly one error, at a token of the text, and all is well in front of it; and no run meets an error
node (`errors_exact`).
-/

namespace Scripting

/-- The program has no error node, and reading stopped at the last token. -/
structure Program.ReadWhole (tokens : List Token) (program : Program) (stop : Cursor) : Prop where
  clean : ∀ s ∈ program.statements, s.errorFree = true
  last : tokens.getLast? = some stop.next
  kind : stop.next.kind = .eof
  rest : stop.rest = []

/-- The last statement of a program is the error that reading stopped with, or lacks its `;`. -/
inductive Program.EndsWith (tokens : List Token) (stop : Cursor) (e : ParseError) : Stmt → Prop where
  | error (span : Span) : EndsWith tokens stop e (.error span [e])
  | statement {last : Stmt} (clean : last.errorFree = true) (place : stop.next ∈ tokens)
      (span : e.span = stop.next.span) (kind : stop.next.kind ≠ .semicolon) :
      EndsWith tokens stop e last

/-- There is one error, at a token, and no error node in front of the statement it ends with. -/
structure Program.ReadUpTo (tokens : List Token) (program : Program) (stop : Cursor)
    (e : ParseError) : Prop where
  sole : program.errors = [e]
  place : ∃ t ∈ tokens, e.span = t.span
  statements : ∃ before last, program.statements = before ++ [last] ∧
    (∀ s ∈ before, s.errorFree = true) ∧ EndsWith tokens stop e last

namespace Parser

variable {tokens : List Token} {all : List Leaf} {p : Program × Cursor}

theorem Verdict.readWhole (h : Verdict tokens all [] p) (herrors : p.1.errors = []) :
    p.1.ReadWhole tokens p.2 := by
  cases h with
  | whole read stands ended =>
    have hrest := stands.rest_of_eof ended
    obtain ⟨front, htokens⟩ := stands.suffix
    rw [hrest] at htokens
    constructor
    · exact fun s hs => (read s hs).errorFree
    · rw [← htokens, List.getLast?_concat]
    · exact ended
    · exact hrest
  | unread => cases herrors
  | unended => cases herrors

theorem Verdict.readUpTo (h : Verdict tokens all [] p) (herrors : p.1.errors ≠ []) :
    ∃ e, p.1.ReadUpTo tokens p.2 e := by
  cases h with
  | whole => exact absurd rfl herrors
  | @unread statements stop span e read place =>
    exact ⟨e, rfl, place, statements, _, rfl, fun s hs => (read s hs).errorFree, .error span⟩
  | @unended statements last stop e read place span kind =>
    rw [List.forall_mem_append, List.forall_mem_singleton] at read
    refine ⟨e, rfl, ⟨_, place, span⟩, statements, last, rfl, ?_, ?_⟩
    · exact fun s hs => (read.1 s hs).errorFree
    · exact .statement read.2.errorFree place span kind

end Parser

theorem parseProgram_of_tokenize {source : String} {tokens : List Token}
    (h : tokenize source = .ok tokens) : parseProgram source = .ok (Parser.program tokens).1 := by
  rw [parseProgram, h]

/-- A program without errors has no error node at any depth and is all of its text. Any other has one
error, at a token of the text; the statements in front of its last one have no error node, and the last
one is the error or lacks its `;`. So a run does the same whatever is done at error nodes, in the place
of the two faults: they never occur. -/
theorem errors_exact :
    (∀ source tokens, tokenize source = .ok tokens →
      ∃ program stop, Parser.program tokens = (program, stop) ∧ parseProgram source = .ok program ∧
        (program.errors = [] → program.ReadWhole tokens stop) ∧
        (program.errors ≠ [] → ∃ e, program.ReadUpTo tokens stop e)) ∧
    (∀ n, Alarm.faults.interp n = Eval.interp n) ∧
    ∀ (alarm : Alarm) n source mode s, s.BetweenRuns →
      alarm.run n source mode s = Eval.run n source mode s := by
  refine ⟨?_, Alarm.interp_faults, ?_⟩
  · intro source tokens htokens
    have hverdict := Parser.verdict_program htokens
    exact ⟨_, _, rfl, parseProgram_of_tokenize htokens, hverdict.readWhole, hverdict.readUpTo⟩
  · intro alarm n source mode s hs
    exact alarm.run_eq hs.errorFree n source mode

theorem exists_tokens {source : String} {p : List Token → Bool}
    (h : (tokenize source).toOption.any p = true) :
    ∃ tokens, tokenize source = .ok tokens ∧ p tokens = true := by
  cases htokens : tokenize source with
  | error d =>
    rw [htokens] at h
    cases h
  | ok tokens =>
    rw [htokens] at h
    exact ⟨tokens, rfl, h⟩

/-- An error deep inside the second statement is the only one, and the first one runs no alarm. -/
theorem errors_exact_unclosed :
    (∃ tokens program stop e,
      tokenize "let f = function() \x7b\x7d; if (f()) \x7b f(1 + \x7d" = .ok tokens ∧
      Parser.program tokens = (program, stop) ∧ program.errors ≠ [] ∧
      program.ReadUpTo tokens stop e) ∧
    (State.initial default).BetweenRuns ∧
    (⟨Eval.outOfFuel, Eval.outOfFuel⟩ : Alarm).run 100 "let f = function() \x7b\x7d; f()" .script
        (State.initial default) =
      Eval.run 100 "let f = function() \x7b\x7d; f()" .script (State.initial default) := by
  refine ⟨?_, .new none none default, ?_⟩
  · have hcheck : (tokenize "let f = function() \x7b\x7d; if (f()) \x7b f(1 + \x7d").toOption.any
        (fun tokens => !(Parser.program tokens).1.errors.isEmpty) = true := by
      decide +kernel
    obtain ⟨tokens, htokens, herrors⟩ := exists_tokens hcheck
    obtain ⟨program, stop, hprogram, -, -, hupTo⟩ := errors_exact.1 _ tokens htokens
    rw [hprogram] at herrors
    have herrors : program.errors ≠ [] := by
      intro hnone
      rw [hnone] at herrors
      cases herrors
    obtain ⟨e, he⟩ := hupTo herrors
    exact ⟨tokens, program, stop, e, htokens, hprogram, herrors, he⟩
  · exact errors_exact.2.2 _ _ _ _ _ (.new none none default)

end Scripting
