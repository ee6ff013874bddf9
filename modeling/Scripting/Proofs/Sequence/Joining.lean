import Scripting.Proofs.RoundTrip.Spelling
import Scripting.Proofs.Account.Statement

/-!
Reading a text with a line break and another text behind it.

A line break ends every word, number and operator, and every comment; a string literal ends with its
quote. So what stands behind the line break changes nothing in the tokens in front of it.
Main statement: `Lexes.append`.
-/

namespace Scripting

/-- A text is read token by token as the given shapes, the last of them `eof`. -/
inductive Lexes : List Char → List Shape → Prop where
  | nil {text : List Char} (gap : (splitGap false text).2 = []) : Lexes text [.eof]
  | cons {text behind : List Char} {c : Char} {piece : Lexeme} {more : List Shape}
      (gap : (splitGap false text).2 = c :: behind) (read : Lexeme.read? c behind = some piece)
      (rest : Lexes piece.rest more) :
      Lexes text (⟨piece.kind, String.ofList piece.lexeme⟩ :: more)

/-- What is left of a text behind its blanks and comments, by its first character. -/
theorem splitGap_cons (inComment : Bool) (c : Char) (text : List Char) :
    (splitGap inComment (c :: text)).2 =
      if inComment = true ∨ Text.isBlank c = true ∨ c = '/' ∧ text.head? = some '/' then
        (splitGap (if inComment then c ≠ '\n' else c = '/') text).2
      else c :: text := by
  simp only [splitGap]
  cases inComment with
  | true => simp
  | false =>
    simp only [Bool.false_eq_true, if_false, Bool.or_eq_true, Bool.and_eq_true, decide_eq_true_eq,
      false_or]
    split <;> rfl

/-! What is taken off the front of a text leaves a shorter one. -/

theorem length_splitGap (inComment : Bool) (text : List Char) :
    (splitGap inComment text).2.length ≤ text.length := by
  induction text generalizing inComment with
  | nil => simp [splitGap]
  | cons c text ih =>
    rw [splitGap_cons]
    split
    · exact Nat.le_succ_of_le (ih _)
    · exact Nat.le_refl _

theorem Lexeme.length_rest_of_read? {c : Char} {behind : List Char} {piece : Lexeme}
    (h : Lexeme.read? c behind = some piece) : piece.rest.length ≤ behind.length := by
  have hdrop : ∀ (p : Char → Bool) (l : List Char), (l.dropWhile p).length ≤ l.length :=
    fun p l => (List.dropWhile_suffix p).length_le
  unfold Lexeme.read? at h
  split at h
  · cases h
    exact hdrop _ _
  split at h
  · cases h
    unfold number
    split
    · have := hdrop (Text.isDigitOf 16)
      simp only [digits, plain, List.length_cons]
      exact Nat.le_succ_of_le (this _)
    · have := hdrop (Text.isDigitOf 16)
      simp only [digits, plain, List.length_cons]
      exact Nat.le_succ_of_le (this _)
    · exact hdrop _ _
  split at h
  · unfold quoted? at h
    have hlength := hdrop (· ≠ c) behind
    split at h
    · cases h
    · rename_i close rest hclose
      cases h
      rw [hclose, List.length_cons] at hlength
      exact Nat.le_of_succ_le hlength
  · cases h
    unfold operator
    split
    · simp [plain]
    · split <;> simp [plain]

theorem Lexes.readsAs {text : List Char} {shapes : List Shape} (h : Lexes text shapes) :
    ReadsAs text shapes := by
  induction h with
  | nil gap =>
    intro limit p hlimit
    obtain ⟨limit, rfl⟩ : ∃ n, limit = n + 1 := ⟨limit - 1, by omega⟩
    simp only [tokensFrom, gap]
    exact ⟨_, rfl, rfl⟩
  | @cons text behind c piece more gap read _ ih =>
    intro limit p hlimit
    obtain ⟨limit, rfl⟩ : ∃ n, limit = n + 1 := ⟨limit - 1, by omega⟩
    have hrest := Lexeme.length_rest_of_read? read
    have hlength := length_splitGap false text
    rw [gap, List.length_cons] at hlength
    obtain ⟨tokens, htokens, hshapes⟩ :=
      ih limit ((p.after (splitGap false text).1).after piece.written) (by omega)
    simp only [tokensFrom, gap, read, htokens]
    exact ⟨_, rfl, by simp [hshapes, Token.shape, Lexeme.token]⟩

/-! The line break behind a text. -/

section

variable {p : Char → Bool} {text rest : List Char}

/-- A run of characters that satisfy `p` is the same with more behind it, if it ends there. -/
theorem run_append (h : ∀ c ∈ (text.dropWhile p ++ rest).head?, p c = false) :
    (text ++ rest).takeWhile p = text.takeWhile p ∧
      (text ++ rest).dropWhile p = text.dropWhile p ++ rest := by
  have hsplit : text ++ rest = text.takeWhile p ++ (text.dropWhile p ++ rest) := by
    rw [← List.append_assoc, List.takeWhile_append_dropWhile]
  have hrun : ∀ c ∈ text.takeWhile p, p c = true := by
    intro c hc
    exact List.all_eq_true.1 List.all_takeWhile c hc
  rw [hsplit]
  exact ⟨takeWhile_append_eq hrun h, dropWhile_append_eq hrun h⟩

variable (text rest) in
theorem run_append_newline (h : p '\n' = false) :
    (text ++ '\n' :: rest).takeWhile p = text.takeWhile p ∧
      (text ++ '\n' :: rest).dropWhile p = text.dropWhile p ++ '\n' :: rest := by
  apply run_append
  cases hdrop : text.dropWhile p with
  | nil => simpa using h
  | cons c behind =>
    have hhead := List.head?_dropWhile_not p text
    rw [hdrop] at hhead
    simpa using hhead

theorem head?_append_newline : (text ++ '\n' :: rest).head? = some '/' ↔ text.head? = some '/' := by
  cases text <;> simp

end

/-- Blanks and comments go on behind the line break, outside of any comment. -/
theorem splitGap_append_of_nil {inComment : Bool} {text : List Char} (rest : List Char)
    (h : (splitGap inComment text).2 = []) :
    (splitGap inComment (text ++ '\n' :: rest)).2 = (splitGap false rest).2 := by
  induction text generalizing inComment with
  | nil =>
    rw [List.nil_append, splitGap_cons, if_pos (.inr (.inl (by decide)))]
    cases inComment <;> rfl
  | cons c text ih =>
    rw [splitGap_cons] at h
    simp only [List.cons_append, splitGap_cons, head?_append_newline]
    split at h
    · rename_i hgap
      rw [if_pos hgap]
      exact ih h
    · cases h

theorem splitGap_append_of_cons {inComment : Bool} {text behind : List Char} {c : Char}
    (rest : List Char) (h : (splitGap inComment text).2 = c :: behind) :
    (splitGap inComment (text ++ '\n' :: rest)).2 = c :: (behind ++ '\n' :: rest) := by
  induction text generalizing inComment with
  | nil => cases h
  | cons d text ih =>
    rw [splitGap_cons] at h
    simp only [List.cons_append, splitGap_cons, head?_append_newline]
    split at h
    · rename_i hgap
      rw [if_pos hgap]
      exact ih h
    · rename_i hgap
      rw [if_neg hgap]
      cases h
      rfl

namespace Lexeme

theorem digits_append (base : Nat) (taken text rest : List Char)
    (h : Text.isDigitOf base '\n' = false) :
    digits base taken (text ++ '\n' :: rest) =
      { digits base taken text with rest := (digits base taken text).rest ++ '\n' :: rest } := by
  obtain ⟨htake, hdrop⟩ := run_append_newline text rest h
  simp only [digits, plain, htake, hdrop]

theorem number_append (c : Char) (text rest : List Char) :
    number c (text ++ '\n' :: rest) =
      { number c text with rest := (number c text).rest ++ '\n' :: rest } := by
  by_cases h : c = '0' ∧ (text.head? = some 'x' ∨ text.head? = some 'X')
  · obtain ⟨rfl, h⟩ := h
    cases text with
    | nil => simp at h
    | cons d text =>
      obtain h | h := h <;> cases h
      · exact digits_append 16 _ text rest (by decide)
      · exact digits_append 16 _ text rest (by decide)
  · have hjoined : ¬(c = '0' ∧ ((text ++ '\n' :: rest).head? = some 'x' ∨
        (text ++ '\n' :: rest).head? = some 'X')) := by
      cases text with
      | nil => simp
      | cons d text => exact h
    rw [number_eq_digits h, number_eq_digits hjoined]
    exact digits_append 10 [c] text rest (by decide)

theorem read?_append {c : Char} {behind : List Char} {piece : Lexeme} (rest : List Char)
    (h : read? c behind = some piece) :
    read? c (behind ++ '\n' :: rest) = some { piece with rest := piece.rest ++ '\n' :: rest } := by
  unfold read? at h ⊢
  split at h
  · rename_i hword
    cases h
    have hline : isWordPart '\n' = false := by decide
    obtain ⟨htake, hdrop⟩ := run_append_newline behind rest hline
    rw [if_pos hword]
    simp only [word, plain, htake, hdrop]
  rename_i hword
  rw [if_neg hword]
  split at h
  · rename_i hdigit
    cases h
    rw [if_pos hdigit, number_append]
  rename_i hdigit
  rw [if_neg hdigit]
  split at h
  · rename_i hquote
    rw [if_pos hquote]
    unfold quoted? at h ⊢
    split at h
    · cases h
    · rename_i close after hclose
      cases h
      have hstop : ∀ d ∈ (behind.dropWhile (· ≠ c) ++ '\n' :: rest).head?,
          decide (d ≠ c) = false := by
        have hhead := List.head?_dropWhile_not (fun d => decide (d ≠ c)) behind
        rw [hclose] at hhead ⊢
        simpa using hhead
      obtain ⟨htake, hdrop⟩ := run_append hstop
      simp only [htake, hdrop, hclose, List.cons_append]
  · rename_i hquote
    cases h
    rw [if_neg hquote]
    have hpair : pair? c '\n' = none := by
      unfold pair?
      split <;> first | rfl | contradiction
    cases behind with
    | nil => simp [operator, hpair, plain]
    | cons d behind =>
      simp only [operator, List.cons_append]
      cases pair? c d <;> rfl

end Lexeme

/-- The tokens of a text, and behind them those of another text behind a line break. -/
theorem Lexes.append {text rest : List Char} {shapes more : List Shape} (h : Lexes text shapes)
    (hrest : Lexes rest more) :
    ∃ init, shapes = init ++ [.eof] ∧ (∀ t ∈ init, t.kind ≠ .eof) ∧
      Lexes (text ++ '\n' :: rest) (init ++ more) := by
  induction h with
  | nil gap =>
    refine ⟨[], rfl, by simp, ?_⟩
    have hgap := splitGap_append_of_nil rest gap
    cases hrest with
    | nil gap' => exact .nil (hgap.trans gap')
    | cons gap' read rest => exact .cons (hgap.trans gap') read rest
  | cons gap read _ ih =>
    obtain ⟨init, rfl, hinit, hlexes⟩ := ih
    have hread := Lexeme.read?_append rest read
    have hjoined := Lexes.cons (splitGap_append_of_cons rest gap) hread hlexes
    refine ⟨_ :: init, rfl, List.forall_mem_cons.2 ⟨Lexeme.kind_ne_eof_of_read? read, hinit⟩, ?_⟩
    exact hjoined

end Scripting
