import Scripting.Proofs.RoundTrip.Reading

/-!
Gaps: the blanks and comments between tokens.

Main statements: every text is a gap in front of the start of a token, or it is a gap to its end
(`gap_cases`), and `splitGap` takes off just this gap (`splitGap_gap`, `splitGap_finalGap`).
-/

namespace Scripting

/-- What may stand in front of a token: blanks, and comments that run to a newline. -/
inductive IsGap : List Char → Prop where
  | nil : IsGap []
  | blank {c : Char} {rest : List Char} (blank : Text.isBlank c = true) (more : IsGap rest) :
      IsGap (c :: rest)
  | comment {body rest : List Char} (line : '\n' ∉ body) (more : IsGap rest) :
      IsGap ('/' :: '/' :: (body ++ '\n' :: rest))

/-- What may stand behind the last token, where a comment may also run to the end of the source. -/
inductive IsFinalGap : List Char → Prop where
  | gap {text : List Char} (gap : IsGap text) : IsFinalGap text
  | comment {front body : List Char} (gap : IsGap front) (line : '\n' ∉ body) :
      IsFinalGap (front ++ '/' :: '/' :: body)

theorem IsGap.append {first second : List Char} (h : IsGap first) (h' : IsGap second) :
    IsGap (first ++ second) := by
  induction h with
  | nil => exact h'
  | blank hc _ ih => exact .blank hc ih
  | comment hbody _ ih =>
    simp only [List.cons_append, List.append_assoc]
    exact .comment hbody ih

theorem IsFinalGap.append {first second : List Char} (h : IsGap first) (h' : IsFinalGap second) :
    IsFinalGap (first ++ second) := by
  cases h' with
  | gap h' => exact .gap (h.append h')
  | comment h' hbody =>
    rw [← List.append_assoc]
    exact .comment (h.append h') hbody

/-! What is taken off. -/

/-- A comment goes on to the newline. -/
theorem splitGap_line {body : List Char} (h : '\n' ∉ body) (rest : List Char) :
    splitGap true (body ++ '\n' :: rest) =
      (body ++ '\n' :: (splitGap false rest).1, (splitGap false rest).2) := by
  induction body with
  | nil => rfl
  | cons c body ih =>
    obtain ⟨hc, hbody⟩ : '\n' ≠ c ∧ '\n' ∉ body := by simpa using h
    simp [splitGap, ih hbody, Ne.symm hc]

theorem splitGap_line_end {body : List Char} (h : '\n' ∉ body) : splitGap true body = (body, []) := by
  induction body with
  | nil => rfl
  | cons c body ih =>
    obtain ⟨hc, hbody⟩ : '\n' ≠ c ∧ '\n' ∉ body := by simpa using h
    simp [splitGap, ih hbody, Ne.symm hc]

theorem splitGap_comment (body : List Char) :
    splitGap false ('/' :: '/' :: body) =
      ('/' :: '/' :: (splitGap true body).1, (splitGap true body).2) := by
  simp [splitGap]

theorem splitGap_blank {c : Char} (h : Text.isBlank c = true) (rest : List Char) :
    splitGap false (c :: rest) = (c :: (splitGap false rest).1, (splitGap false rest).2) := by
  have hslash : c ≠ '/' := by
    rintro rfl
    cases h
  simp [splitGap, h, hslash]

theorem splitGap_append {front : List Char} (h : IsGap front) (rest : List Char) :
    splitGap false (front ++ rest) = (front ++ (splitGap false rest).1, (splitGap false rest).2) := by
  induction h with
  | nil => rfl
  | blank hc _ ih => rw [List.cons_append, splitGap_blank hc, ih, List.cons_append]
  | comment hbody _ ih =>
    simp only [List.cons_append, List.append_assoc]
    rw [splitGap_comment, splitGap_line hbody, ih]

theorem splitGap_gap {front behind : List Char} {c : Char} (h : IsGap front)
    (hstart : StartsToken c behind) : splitGap false (front ++ c :: behind) = (front, c :: behind) := by
  rw [splitGap_append h, splitGap_of_startsToken hstart, List.append_nil]

theorem splitGap_finalGap {text : List Char} (h : IsFinalGap text) :
    splitGap false text = (text, []) := by
  cases h with
  | gap h =>
    have := splitGap_append h []
    simpa [splitGap] using this
  | comment h hbody => rw [splitGap_append h, splitGap_comment, splitGap_line_end hbody]

/-- Every text is a gap in front of the start of a token, or a gap to its end. -/
theorem gap_cases (text : List Char) :
    (∃ front c behind, IsGap front ∧ StartsToken c behind ∧ text = front ++ c :: behind) ∨
      IsFinalGap text := by
  -- a comment takes off many characters at once
  induction hlength : text.length using Nat.strongRecOn generalizing text with
  | ind length ih =>
    subst hlength
    have hbehind : ∀ front rest : List Char, IsGap front → rest.length < text.length →
        text = front ++ rest →
        (∃ front c behind, IsGap front ∧ StartsToken c behind ∧ text = front ++ c :: behind) ∨
          IsFinalGap text := by
      intro front rest hfront hrest htext
      obtain ⟨more, c, behind, hmore, hstart, rfl⟩ | hfinal := ih _ hrest rest rfl
      · refine .inl ⟨front ++ more, c, behind, hfront.append hmore, hstart, ?_⟩
        rw [htext, List.append_assoc]
      · exact .inr (htext ▸ IsFinalGap.append hfront hfinal)
    match text with
    | [] => exact .inr (.gap .nil)
    | c :: rest =>
      by_cases hblank : Text.isBlank c = true
      · exact hbehind [c] rest (.blank hblank .nil) (Nat.lt_succ_self _) rfl
      by_cases hcomment : c = '/' ∧ rest.head? = some '/'
      · obtain ⟨rfl, hhead⟩ := hcomment
        obtain ⟨rest, rfl⟩ := List.head?_eq_some_iff.1 hhead
        by_cases hline : '\n' ∈ rest
        · obtain ⟨body, rest, rfl, hbody⟩ := List.eq_append_cons_of_mem hline
          refine hbehind _ rest (.comment hbody .nil) ?_ ?_
          · simp only [List.length_cons, List.length_append]
            omega
          · simp
        · exact .inr (.comment .nil hline)
      · exact .inl ⟨[], c, rest, .nil, ⟨Bool.eq_false_iff.2 hblank, hcomment⟩, rfl⟩

end Scripting
