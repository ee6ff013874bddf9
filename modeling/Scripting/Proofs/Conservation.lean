import Scripting.Proofs.Account.Program
import Scripting.Proofs.RoundTrip

/-!
Reading loses nothing that a text says and adds nothing to it: the leaves of a program are those of its
tokens, in the order of the source.
-/

namespace Scripting

/-- At the last token everything is taken. -/
theorem Cursor.Stands.taken_of_eof {tokens : List Token} {all taken : List Leaf} {bound : Nat}
    {c : Cursor} (h : c.Stands tokens all bound taken) (heof : c.next.kind = .eof) :
    all = taken := by
  have hnone : c.leaves = [] := by
    rw [Cursor.leaves, h.rest_of_eof heof]
    simp [Token.leavesFrom, Token.leaves, heof]
  have hleaves := h.leaves
  rwa [hnone, List.append_nil] at hleaves

/-- The names, numbers and texts of a program that is read without errors are exactly those of the
tokens of its source, in the same order. A keyword counts where it is the name of a member. -/
theorem leaves_conserved {source : String} {program : Program}
    (hprogram : parseProgram source = .ok program) (herror : program.isError = false) :
    ∃ tokens, tokenize source = .ok tokens ∧ program.leaves = Token.leavesFrom false tokens := by
  unfold parseProgram at hprogram
  split at hprogram
  · rename_i tokens htokens
    have hverdict := Parser.verdict_program htokens
    rw [Except.ok.injEq] at hprogram
    refine ⟨tokens, htokens, ?_⟩
    generalize Parser.program tokens = result at hverdict hprogram
    subst hprogram
    cases hverdict with
    | whole _ stands ended => exact (stands.taken_of_eof ended).symm
    | unread => cases herror
    | unended => cases herror
  · cases hprogram

/-- A source with keywords as names of members, numbers in both bases and a label with a sign. -/
def leafySource : String :=
  "function f(p, q) \x7b switch (p.new) \x7b case -0x1F: let r = 'a b'; default: return; \x7d \x7d " ++
  "try new A.if.c(1, this)[i].for++ catch (e) throw f"

def leafyLeaves : List Leaf :=
  [.name "f", .name "p", .name "q", .name "p", .name "new", .number (some 31), .name "r", .text "a b",
    .name "A", .name "if", .name "c", .number (some 1), .name "i", .name "for", .name "e", .name "f"]

theorem leaves_conserved_members :
    ∃ program tokens, parseProgram leafySource = .ok program ∧ program.isError = false ∧
      tokenize leafySource = .ok tokens ∧ program.leaves = Token.leavesFrom false tokens ∧
      program.leaves = leafyLeaves := by
  have hcheck : (parseProgram leafySource).toOption.any (fun program =>
      !program.isError && decide (program.leaves = leafyLeaves)) = true := by
    decide +kernel
  obtain ⟨program, hprogram, h⟩ := exists_program hcheck
  simp only [Bool.and_eq_true, Bool.not_eq_true', decide_eq_true_eq] at h
  obtain ⟨tokens, htokens, hleaves⟩ := leaves_conserved hprogram h.1
  exact ⟨program, tokens, hprogram, h.1, htokens, hleaves, h.2⟩

end Scripting
