import Scripting.Proofs.Scanning.Gap
import Scripting.Proofs.Scanning.Place
import Scripting.Proofs.Scanning.Vocabulary

/-!
Scanning a source: `Scans` says how a source is cut into tokens, without saying how they are found.

At each place a gap is passed over and the longest match is taken. The scan stops at the end of the
source, or fails at a quote that does not occur again. Main statement: `tokenize` gives a result
exactly if the source scans with this result.
-/

namespace Scripting

open Vocabulary

/-- The scan of `text`, which stands behind `before` in the source. -/
inductive Scans : List Char → List Char → Except Diagnostic (List Token) → Prop where
  | ended {before text : List Char} (gap : IsFinalGap text) :
      Scans before text (.ok [.eof (.behind (before ++ text))])
  | unterminated {before front behind : List Char} {quote : Char} (gap : IsGap front)
      (opens : IsQuote quote) (unclosed : quote ∉ behind) :
      Scans before (front ++ quote :: behind)
        (.error ⟨.lexer, "Unterminated string literal",
          some ⟨.behind (before ++ front), byteLength (quote :: behind)⟩⟩)
  | token {before front behind : List Char} {c : Char} {piece : Lexeme}
      {result : Except Diagnostic (List Token)} (gap : IsGap front) (starts : StartsToken c behind)
      (longest : Longest (c :: behind) piece)
      (rest : Scans (before ++ front ++ piece.written) piece.rest result) :
      Scans before (front ++ c :: behind)
        (result.map (piece.token (.behind (before ++ front)) :: ·))

/-! The tokens of a text, by what stands at its front. -/

section

variable {before front behind text : List Char} {c : Char} {limit : Nat}

theorem tokensFrom_finalGap (h : IsFinalGap text) :
    tokensFrom (limit + 1) (.behind before) text = .ok [.eof (.behind (before ++ text))] := by
  simp only [tokensFrom, splitGap_finalGap h, Location.after_behind]

theorem tokensFrom_none (hgap : IsGap front) (hstart : StartsToken c behind)
    (hread : Lexeme.read? c behind = none) :
    tokensFrom (limit + 1) (.behind before) (front ++ c :: behind) =
      .error (unterminatedString (.behind (before ++ front)) (c :: behind)) := by
  simp only [tokensFrom, splitGap_gap hgap hstart, hread, Location.after_behind]

theorem tokensFrom_some {piece : Lexeme} (hgap : IsGap front) (hstart : StartsToken c behind)
    (hread : Lexeme.read? c behind = some piece) :
    tokensFrom (limit + 1) (.behind before) (front ++ c :: behind) =
      (tokensFrom limit (.behind (before ++ front ++ piece.written)) piece.rest).map
        (piece.token (.behind (before ++ front)) :: ·) := by
  simp only [tokensFrom, splitGap_gap hgap hstart, hread, Location.after_behind]
  cases tokensFrom limit (.behind (before ++ front ++ piece.written)) piece.rest <;> rfl

/-- An open quote starts a token. -/
theorem startsToken_of_isQuote (h : IsQuote c) : StartsToken c behind := by
  rcases h with rfl | rfl
  · exact ⟨by decide, by simp⟩
  · exact ⟨by decide, by simp⟩

end

theorem scans_tokensFrom {limit : Nat} (before text : List Char) (hlimit : text.length < limit) :
    Scans before text (tokensFrom limit (.behind before) text) := by
  induction limit generalizing before text with
  | zero => omega
  | succ limit ih =>
    obtain ⟨front, c, behind, hgap, hstart, rfl⟩ | hfinal := gap_cases text
    · cases hread : Lexeme.read? c behind with
      | none =>
        obtain ⟨hquote, hopen⟩ := Lexeme.read?_eq_none_iff.1 hread
        rw [tokensFrom_none hgap hstart hread]
        exact .unterminated hgap hquote hopen
      | some piece =>
        have hrest := Lexeme.length_rest_of_read? hread
        rw [List.length_append, List.length_cons] at hlimit
        rw [tokensFrom_some hgap hstart hread]
        exact .token hgap hstart (Lexeme.read?_eq_some_iff.1 hread) (ih _ _ (by omega))
    · rw [tokensFrom_finalGap hfinal]
      exact .ended hfinal

theorem Scans.tokensFrom_eq {before text : List Char} {result : Except Diagnostic (List Token)}
    (h : Scans before text result) :
    ∀ limit, text.length < limit → tokensFrom limit (.behind before) text = result := by
  induction h with
  | ended gap =>
    rintro (_ | limit) hlimit
    · omega
    · exact tokensFrom_finalGap gap
  | unterminated gap opens unclosed =>
    rintro (_ | limit) hlimit
    · omega
    · exact tokensFrom_none gap (startsToken_of_isQuote opens)
        (Lexeme.read?_eq_none_iff.2 ⟨opens, unclosed⟩)
  | token gap starts longest _ ih =>
    have hread := Lexeme.read?_eq_some_iff.2 longest
    have hrest := Lexeme.length_rest_of_read? hread
    rintro (_ | limit) hlimit
    · omega
    · rw [List.length_append, List.length_cons] at hlimit
      rw [tokensFrom_some gap starts hread, ih limit (by omega)]

theorem scans_tokenize (source : String) : Scans [] source.toList (tokenize source) :=
  scans_tokensFrom [] source.toList (Nat.lt_succ_self _)

/-- A source has the tokens, or the error, of its scan by the longest match. -/
theorem tokenize_eq_iff_scans (source : String) (result : Except Diagnostic (List Token)) :
    tokenize source = result ↔ Scans [] source.toList result := by
  constructor
  · rintro rfl
    exact scans_tokenize source
  · intro h
    exact h.tokensFrom_eq _ (Nat.lt_succ_self _)

end Scripting
