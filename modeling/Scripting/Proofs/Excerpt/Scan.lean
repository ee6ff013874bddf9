import Scripting.Proofs.Tiling

/-!
The tokens of a piece of a source.

A piece that starts with one of the tokens and ends with another one has these two as its tokens and
those between them: what the longest match is at a place does not change when the source is cut off
behind the match. Main statement: `tokenize_slice`.
-/

namespace Scripting

open Vocabulary

/-! Cutting a source off behind a token. -/

theorem Longest.truncate {text rest : List Char} {piece : Lexeme} (h : Longest text piece)
    (hrest : rest <+: piece.rest) : Longest (piece.written ++ rest) { piece with rest } := by
  obtain ⟨more, hmore⟩ := hrest
  have hprefix : piece.written ++ rest <+: text := by
    rw [h.text_eq, ← hmore, ← List.append_assoc]
    exact List.prefix_append _ more
  cases h with
  | taken _ spelled longest lexeme =>
    refine .taken rfl spelled ?_ lexeme
    intro kind other hother hfront
    exact longest kind other hother (hfront.trans hprefix)
  | invalid _ piece_eq quote unknown =>
    subst piece_eq
    refine .invalid rfl rfl quote ?_
    intro kind other hother hfront
    exact unknown kind other hother (hfront.trans hprefix)

/-- A token that is followed by less than before. -/
theorem Scans.cutToken {before behind rest : List Char} {c : Char} {piece : Lexeme}
    {tokens : List Token} (starts : StartsToken c behind) (longest : Longest (c :: behind) piece)
    (hrest : rest <+: piece.rest) (h : Scans (before ++ piece.written) rest (.ok tokens)) :
    Scans before (piece.written ++ rest) (.ok (piece.token (.behind before) :: tokens)) := by
  have hcut := longest.truncate hrest
  have htext := longest.text_eq
  have hne := longest.written_ne_nil
  obtain ⟨kind, written, lexeme, behind'⟩ := piece
  obtain ⟨more, rfl⟩ := hrest
  cases written with
  | nil => exact absurd rfl hne
  | cons d run =>
    rw [List.cons_append] at htext
    obtain ⟨rfl, rfl⟩ := List.cons.inj htext
    -- what follows the first character is cut off, and not changed
    have hstarts : StartsToken c (run ++ rest) := by
      refine ⟨starts.1, ?_⟩
      rintro ⟨hslash, hnext⟩
      refine starts.2 ⟨hslash, ?_⟩
      rw [← List.append_assoc, List.head?_append, hnext]
      rfl
    have hbehind : Scans (before ++ [] ++ c :: run) rest (.ok tokens) := by simpa using h
    have htoken := Scans.token .nil hstarts hcut hbehind
    simpa [Except.map, Lexeme.token] using htoken

/-- A gap in front of a source is passed over. -/
theorem Scans.behindGap {before gap text : List Char} {tokens : List Token} (hgap : IsGap gap)
    (h : Scans (before ++ gap) text (.ok tokens)) : Scans before (gap ++ text) (.ok tokens) := by
  generalize hbefore : before ++ gap = before' at h
  generalize hresult : Except.ok tokens = result at h
  cases h with
  | ended final =>
    subst hbefore
    have hended : Scans before (gap ++ text) _ := .ended (final.append hgap)
    rwa [List.append_assoc]
  | unterminated => cases hresult
  | @token _ front behind c piece result gap' starts longest rest =>
    subst hbefore
    have htoken : Scans before ((gap ++ front) ++ c :: behind) _ :=
      .token (hgap.append gap') starts longest (by simpa using rest)
    simpa [hresult] using htoken

/-- The tokens from the first to the last one of a segment are those of the text from the start of the
first to the end of the last one. -/
theorem Scans.segment {before text : List Char} {result : Except Diagnostic (List Token)}
    (h : Scans before text result) {first : Token} {segment more : List Token}
    (hresult : result = .ok (first :: segment ++ more)) (hmore : more ≠ []) :
    ∃ gap body rest, text = gap ++ (body ++ rest) ∧ IsGap gap ∧
      first.span.start.offset = byteLength (before ++ gap) ∧
      (segment.getLastD first).span.endOffset = byteLength (before ++ gap ++ body) ∧
      ∀ before', ∃ tokens, Scans before' body (.ok tokens) ∧
        tokens.map Token.shape = (first :: segment).map Token.shape ++ [.eof] := by
  induction h generalizing first segment with
  | ended gap =>
    simp only [Except.ok.injEq, List.cons_append, List.cons.injEq] at hresult
    have hnil := hresult.2
    simp [hmore] at hnil
  | unterminated => cases hresult
  | @token before front behind c piece result gap starts longest rest ih =>
    cases result with
    | error d => cases hresult
    | ok tokens =>
      simp only [Except.map, Except.ok.injEq, List.cons_append, List.cons.injEq] at hresult
      obtain ⟨rfl, rfl⟩ := hresult
      have hspan : (piece.token (.behind (before ++ front))).span =
        ⟨.behind (before ++ front), byteLength piece.written⟩ := rfl
      have hshape : ∀ p q, (piece.token p).shape = (piece.token q).shape := fun _ _ => rfl
      cases segment with
      | nil =>
        refine ⟨front, piece.written, piece.rest, by rw [longest.text_eq], gap,
          Tiling.start_of_span hspan, Tiling.endOffset_of_span hspan, ?_⟩
        intro before'
        have hended : Scans (before' ++ piece.written) [] _ := .ended (.gap .nil)
        have hcut := Scans.cutToken starts longest List.nil_prefix hended
        rw [List.append_nil] at hcut
        exact ⟨_, hcut, rfl⟩
      | cons second segment =>
        obtain ⟨gap', body, rest', htext, hgap', -, hstop, hscans⟩ := ih rfl
        refine ⟨front, piece.written ++ (gap' ++ body), rest', ?_, gap,
          Tiling.start_of_span hspan, ?_, ?_⟩
        · rw [longest.text_eq, htext]
          simp
        · rw [List.getLastD_cons, hstop]
          simp
        · intro before'
          obtain ⟨tokens, hscan, hshapes⟩ := hscans (before' ++ piece.written ++ gap')
          have hrest : gap' ++ body <+: piece.rest := ⟨rest', by rw [htext]; simp⟩
          have hcut := Scans.cutToken starts longest hrest (hscan.behindGap hgap')
          refine ⟨_, hcut, ?_⟩
          rw [List.map_cons, List.map_cons, hshapes]
          rfl

/-- Tokens are taken off the front of a source one by one. -/
theorem Scans.drop {before text : List Char} {front tokens : List Token}
    (h : Scans before text (.ok (front ++ tokens))) (htokens : tokens ≠ []) :
    ∃ before' text', before ++ text = before' ++ text' ∧ Scans before' text' (.ok tokens) := by
  induction front generalizing before text with
  | nil => exact ⟨before, text, rfl, h⟩
  | cons t front ih =>
    generalize hresult : Except.ok (t :: front ++ tokens) = result at h
    cases h with
    | ended gap =>
      simp only [Except.ok.injEq, List.cons_append, List.cons.injEq] at hresult
      have hnil := hresult.2
      simp [htokens] at hnil
    | unterminated => cases hresult
    | @token _ gap behind c piece result _ _ longest rest =>
      cases result with
      | error d => cases hresult
      | ok more =>
        simp only [Except.map, Except.ok.injEq, List.cons_append, List.cons.injEq] at hresult
        obtain ⟨-, rfl⟩ := hresult
        obtain ⟨before', text', heq, hscan⟩ := ih rest
        refine ⟨before', text', ?_, hscan⟩
        rw [← heq, longest.text_eq]
        simp

/-- The piece of a source from the start of one token to the end of another has the tokens from the one
to the other. -/
theorem tokenize_slice {source : String} {front segment more : List Token} {first : Token}
    (h : tokenize source = .ok (front ++ (first :: segment ++ more))) (hmore : more ≠ []) :
    ∃ tokens, tokenize (String.ofList (slice first.span.start.offset
        (segment.getLastD first).span.endOffset source.toList)) = .ok tokens ∧
      tokens.map Token.shape = (first :: segment).map Token.shape ++ [.eof] := by
  have hsource := scans_tokenize source
  rw [h] at hsource
  obtain ⟨before, text, hdrop, hscan⟩ := hsource.drop (by simp)
  obtain ⟨gap, body, rest, htext, -, hstart, hstop, hbody⟩ := hscan.segment rfl hmore
  obtain ⟨tokens, hbody, hshapes⟩ := hbody []
  have hslice : slice first.span.start.offset (segment.getLastD first).span.endOffset
      source.toList = body := by
    have hpieces : source.toList = before ++ gap ++ body ++ rest := by
      rw [List.nil_append] at hdrop
      rw [hdrop, htext]
      simp
    rw [hstart, hstop, hpieces, slice_append]
  refine ⟨tokens, ?_, hshapes⟩
  rw [hslice, tokenize, String.toList_ofList]
  exact hbody.tokensFrom_eq _ (Nat.lt_succ_self _)

end Scripting
