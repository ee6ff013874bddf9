import Scripting.Proofs.Scanning

/-!
The tokens of a source lie in it side by side.

Every token stands where its span says, with nothing but blanks and comments between two of them, and
its span gives its line, column and offset. Main statement: `tokens_tile`.
-/

namespace Scripting

open Vocabulary

/-- What is written for a token: its lexeme, in quotes if it is a string literal. -/
def Token.IsWrittenAs (t : Token) (text : List Char) : Prop :=
  if t.kind = .string then
    ∃ quote, IsQuote quote ∧ quote ∉ t.lexeme.toList ∧ text = quote :: t.lexeme.toList ++ [quote]
  else text = t.lexeme.toList

/-- A token stands in a source where its span says: the span starts and ends between characters, the
token is written there, and the start is the place behind all that stands in front of it. -/
structure Token.Stands (t : Token) (source : List Char) : Prop where
  starts : IsBoundary t.span.start.offset source
  ends : IsBoundary t.span.endOffset source
  written : t.IsWrittenAs (slice t.span.start.offset t.span.endOffset source)
  placed : t.span.start = .behind (splitAtByte t.span.start.offset source).1

/-- A piece of a source: what is written for a token, and the gap in front of it. -/
structure Tile where
  gap : List Char
  written : List Char

/-- The pieces of a source from an offset on, as the spans of the tokens cut them. -/
def tiles (source : List Char) : Nat → List Token → List Tile
  | _, [] => []
  | start, t :: rest =>
    ⟨slice start t.span.start.offset source,
      slice t.span.start.offset t.span.endOffset source⟩ :: tiles source t.span.endOffset rest

/-- The tokens of `text`, which stands behind `before` in the source, lie in it side by side. -/
structure Tiling (before text : List Char) (tokens : List Token) : Prop where
  behind : ∀ t ∈ tokens, byteLength before ≤ t.span.start.offset
  ordered : tokens.Pairwise fun t u =>
    t.span.start.offset < u.span.start.offset ∧ t.span.endOffset ≤ u.span.start.offset
  stands : ∀ t ∈ tokens, t.Stands (before ++ text)
  covering : ((tiles (before ++ text) (byteLength before) tokens).flatMap fun tile =>
    tile.gap ++ tile.written) = text
  gaps : ∀ tile ∈ (tiles (before ++ text) (byteLength before) tokens).dropLast, IsGap tile.gap
  lastGap : ∀ tile ∈ (tiles (before ++ text) (byteLength before) tokens).getLast?,
    IsFinalGap tile.gap
  last : ∃ init, tokens = init ++ [.eof (.behind (before ++ text))] ∧ ∀ t ∈ init, t.kind ≠ .eof

namespace Longest

variable {text : List Char} {piece : Lexeme}

theorem text_eq (h : Longest text piece) : text = piece.written ++ piece.rest := by
  cases h with
  | taken text_eq => exact text_eq
  | invalid text_eq piece_eq =>
    rw [text_eq, piece_eq]
    rfl

theorem written_ne_nil (h : Longest text piece) : piece.written ≠ [] := by
  cases h with
  | taken _ spelled => exact Lexeme.ne_nil_of_mem_spellings spelled
  | invalid _ piece_eq =>
    rw [piece_eq]
    simp [Lexeme.plain]

theorem kind_ne_eof (h : Longest text piece) : piece.kind ≠ .eof := by
  cases text with
  | nil => exact absurd (List.append_eq_nil_iff.1 h.text_eq.symm).1 h.written_ne_nil
  | cons c behind => exact Lexeme.kind_ne_eof_of_read? (Lexeme.read?_eq_some_iff.2 h)

theorem isWrittenAs (h : Longest text piece) (p : Location) :
    (piece.token p).IsWrittenAs piece.written := by
  unfold Token.IsWrittenAs
  simp only [Lexeme.token, String.toList_ofList]
  cases h with
  | taken _ spelled _ lexeme =>
    rw [lexeme]
    by_cases hstring : piece.kind = .string
    · simp only [hstring, if_true]
      rw [hstring] at spelled
      rcases spelled with h | h
      · obtain ⟨body, hbody, heq⟩ := mem_quoted.1 h
        exact ⟨'"', .inl rfl, by simpa [heq] using hbody, by simp [heq]⟩
      · obtain ⟨body, hbody, heq⟩ := mem_quoted.1 h
        exact ⟨'\'', .inr rfl, by simpa [heq] using hbody, by simp [heq]⟩
    · simp only [hstring, if_false]
  | invalid _ piece_eq =>
    subst piece_eq
    simp [Lexeme.plain]

end Longest

namespace Tiling

section

variable {before front written : List Char} {t : Token}

theorem start_of_span (h : t.span = ⟨.behind before, byteLength written⟩) :
    t.span.start.offset = byteLength before := by
  rw [h]
  rfl

theorem endOffset_of_span (h : t.span = ⟨.behind before, byteLength written⟩) :
    t.span.endOffset = byteLength (before ++ written) := by
  rw [Span.endOffset, start_of_span h, h, byteLength_append]

theorem stands_of_span (hspan : t.span = ⟨.behind before, byteLength written⟩)
    (hwritten : t.IsWrittenAs written) (rest : List Char) :
    t.Stands (before ++ written ++ rest) := by
  have hstart := start_of_span hspan
  have hend := endOffset_of_span hspan
  constructor
  · rw [hstart, List.append_assoc]
    exact isBoundary_append before _
  · rw [hend]
    exact isBoundary_append _ rest
  · rw [hstart, hend, slice_append]
    exact hwritten
  · rw [hstart, List.append_assoc, splitAtByte_append, hspan]

theorem tiles_of_span (hspan : t.span = ⟨.behind (before ++ front), byteLength written⟩)
    (rest : List Char) (tokens : List Token) :
    tiles (before ++ front ++ written ++ rest) (byteLength before) (t :: tokens) =
      ⟨front, written⟩ :: tiles (before ++ front ++ written ++ rest)
        (byteLength (before ++ front ++ written)) tokens := by
  have hgap : slice (byteLength before) (byteLength (before ++ front))
      (before ++ front ++ written ++ rest) = front := by
    rw [List.append_assoc (before ++ front), slice_append]
  rw [tiles, start_of_span hspan, endOffset_of_span hspan, hgap, slice_append]

end

theorem ended {before text : List Char} (h : IsFinalGap text) :
    Tiling before text [.eof (.behind (before ++ text))] := by
  have hspan : (Token.eof (.behind (before ++ text))).span =
      ⟨.behind (before ++ text), byteLength []⟩ := rfl
  have hwritten : (Token.eof (.behind (before ++ text))).IsWrittenAs [] := rfl
  have htiles := tiles_of_span hspan [] []
  have hstands := stands_of_span hspan hwritten []
  simp only [List.append_nil] at htiles hstands
  constructor
  · intro t ht
    obtain rfl := List.mem_singleton.1 ht
    rw [start_of_span hspan, byteLength_append]
    omega
  · exact List.pairwise_singleton _ _
  · intro t ht
    obtain rfl := List.mem_singleton.1 ht
    exact hstands
  · rw [htiles]
    simp [tiles]
  · simp [tiles]
  · rw [htiles]
    simpa [tiles] using h
  · exact ⟨[], rfl, by simp⟩

theorem token {before front written rest : List Char} {t : Token} {tokens : List Token}
    (hgap : IsGap front) (hspan : t.span = ⟨.behind (before ++ front), byteLength written⟩)
    (hwritten : t.IsWrittenAs written) (hne : written ≠ []) (hkind : t.kind ≠ .eof)
    (h : Tiling (before ++ front ++ written) rest tokens) :
    Tiling before (front ++ (written ++ rest)) (t :: tokens) := by
  have hsource : before ++ (front ++ (written ++ rest)) = before ++ front ++ written ++ rest := by
    simp
  have htiles := tiles_of_span hspan rest tokens
  obtain ⟨init, rfl, hinit⟩ := h.last
  have hmore : tiles (before ++ front ++ written ++ rest) (byteLength (before ++ front ++ written))
      (init ++ [.eof (.behind (before ++ front ++ written ++ rest))]) ≠ [] := by
    cases init <;> simp [tiles]
  constructor
  · intro u hu
    obtain rfl | hu := List.mem_cons.1 hu
    · rw [start_of_span hspan, byteLength_append]
      omega
    · have := h.behind u hu
      simp only [byteLength_append] at this
      omega
  · refine List.pairwise_cons.2 ⟨?_, h.ordered⟩
    intro u hu
    have hbehind := h.behind u hu
    have hpos := byteLength_pos hne
    rw [start_of_span hspan, endOffset_of_span hspan]
    simp only [byteLength_append] at hbehind ⊢
    omega
  · rw [hsource]
    intro u hu
    obtain rfl | hu := List.mem_cons.1 hu
    · exact stands_of_span hspan hwritten rest
    · exact h.stands u hu
  · rw [hsource, htiles, List.flatMap_cons, h.covering]
    simp
  · rw [hsource, htiles, List.dropLast_cons_of_ne_nil hmore]
    intro tile htile
    obtain rfl | htile := List.mem_cons.1 htile
    · exact hgap
    · exact h.gaps tile htile
  · rw [hsource, htiles]
    intro tile htile
    apply h.lastGap tile
    obtain ⟨first, more, htiles'⟩ := List.exists_cons_of_ne_nil hmore
    rw [htiles'] at htile ⊢
    simpa using htile
  · refine ⟨t :: init, by rw [hsource]; rfl, ?_⟩
    exact List.forall_mem_cons.2 ⟨hkind, hinit⟩

end Tiling

theorem Scans.tiling {before text : List Char} {result : Except Diagnostic (List Token)}
    (h : Scans before text result) : ∀ tokens, result = .ok tokens → Tiling before text tokens := by
  induction h with
  | ended gap =>
    rintro _ ⟨⟩
    exact .ended gap
  | unterminated =>
    intro tokens h
    cases h
  | @token _ _ _ _ _ result gap starts longest _ ih =>
    intro tokens h
    cases result with
    | error d => cases h
    | ok more =>
      cases h
      rw [longest.text_eq]
      exact .token gap rfl (longest.isWrittenAs _) longest.written_ne_nil longest.kind_ne_eof
        (ih more rfl)

/-- The tokens of a source lie in it side by side: in order and without overlap, between characters,
with only blanks and comments between them, to the end of the source, where the only `eof` stands; each
token is written where it stands, and has the line and column of its place. -/
theorem tokens_tile {source : String} {tokens : List Token} (h : tokenize source = .ok tokens) :
    Tiling [] source.toList tokens :=
  (scans_tokenize source).tiling tokens h

theorem tokens_tile_comment :
    tokenize "é // é\n'c'" = .ok [⟨.invalid, "é", ⟨⟨0, 0, 0⟩, 2⟩⟩, ⟨.string, "c", ⟨⟨1, 0, 9⟩, 3⟩⟩,
      ⟨.eof, "", ⟨⟨1, 3, 12⟩, 0⟩⟩] ∧
    Tiling [] "é // é\n'c'".toList [⟨.invalid, "é", ⟨⟨0, 0, 0⟩, 2⟩⟩,
      ⟨.string, "c", ⟨⟨1, 0, 9⟩, 3⟩⟩, ⟨.eof, "", ⟨⟨1, 3, 12⟩, 0⟩⟩] :=
  ⟨by decide, tokens_tile (by decide)⟩

end Scripting
