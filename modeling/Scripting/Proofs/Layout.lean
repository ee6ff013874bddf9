import Scripting.Proofs.Sequence.Program
import Scripting.Proofs.Tiling

/-!
The layout of a source does not matter: its tokens, written one after the other with any separators
between them, are read as the same tokens and the same program.

A token that ends in front of a blank, or at the end of the source, is the longest match there as well:
of all tokens only string literals may contain a blank, and these end with their quote.
-/

namespace Scripting

variable {text : List Char}

open Vocabulary

/-- A text in front of which a token ends: nothing, or one that starts with a blank. -/
def SetsOff (text : List Char) : Prop :=
  ∀ c ∈ text.head?, Text.isBlank c = true

/-- What separates two tokens: blanks and comments, of which the first is a blank. -/
structure IsSeparator (text : List Char) : Prop where
  gap : IsGap text
  blank : ∃ c ∈ text.head?, Text.isBlank c = true

/-- Texts one after the other, with separators between them. -/
def spread (separators : Nat → List Char) : List (List Char) → List Char
  | [] => []
  | [text] => text
  | text :: next :: more =>
    text ++ (separators 0 ++ spread (fun i => separators (i + 1)) (next :: more))

/-- What is written in a source for its tokens in front of the `eof`. -/
def writtenTokens (source : List Char) (tokens : List Token) : List (List Char) :=
  tokens.dropLast.map fun t => slice t.span.start.offset t.span.endOffset source

theorem IsSeparator.setsOff_append (h : IsSeparator text) (rest : List Char) :
    SetsOff (text ++ rest) := by
  obtain ⟨c, hc, hblank⟩ := h.blank
  obtain ⟨more, rfl⟩ := List.head?_eq_some_iff.1 hc
  intro d hd
  obtain rfl : c = d := by simpa using hd
  exact hblank

/-! Blanks in the texts of tokens. -/

theorem isBlank_of_isWordPart {c : Char} (h : Lexeme.isWordPart c = true) :
    Text.isBlank c = false := by
  simp only [Lexeme.isWordPart, Bool.or_eq_true] at h
  rcases h with h | h
  · have := Lexeme.isWordStart_bounds h
    simp [Text.isBlank]
    omega
  · have := Text.isDigitOf_iff_bounds.1 (isDigit_iff.1 (by simpa [IsDigit] using h))
    simp [Text.isBlank]
    omega

theorem isBlank_of_isWord (h : Lexeme.isWord text = true) : ∀ c ∈ text, Text.isBlank c = false := by
  cases text with
  | nil => cases h
  | cons c run =>
    simp only [Lexeme.isWord, Bool.and_eq_true, List.all_eq_true] at h
    refine List.forall_mem_cons.2 ⟨isBlank_of_isWordPart ?_, ?_⟩
    · simp [Lexeme.isWordPart, h.1]
    · exact fun d hd => isBlank_of_isWordPart (h.2 d hd)

theorem isBlank_of_number (h : text ∈ decimal + hexadecimal) :
    ∀ c ∈ text, Text.isBlank c = false := by
  rcases h with h | h
  · obtain ⟨c, run, rfl, hc, hrun⟩ := mem_decimal.1 h
    refine List.forall_mem_cons.2 ⟨?_, fun d hd => ?_⟩
    · exact isBlank_of_isWordPart (Lexeme.isWordPart_of_isDigitOf hc)
    · exact isBlank_of_isWordPart (Lexeme.isWordPart_of_isDigitOf (hrun d hd))
  · obtain ⟨x, run, rfl, hx, hrun⟩ := mem_hexadecimal.1 h
    refine List.forall_mem_cons.2 ⟨by decide, List.forall_mem_cons.2 ⟨?_, fun d hd => ?_⟩⟩
    · rcases hx with rfl | rfl <;> decide
    · exact isBlank_of_isWordPart (Lexeme.isWordPart_of_isDigitOf (hrun d hd))

theorem isBlank_of_operator {kind : TokenKind} (h : (text, kind) ∈ operators) :
    ∀ c ∈ text, Text.isBlank c = false := by
  have hnone : (operators.all fun entry => entry.1.all fun c => !Text.isBlank c) = true := rfl
  intro c hc
  simpa using List.all_eq_true.1 (List.all_eq_true.1 hnone _ h) c hc

/-- A token with a blank in it is a string literal. -/
theorem quoted_of_isBlank {kind : TokenKind} {c : Char} (h : text ∈ kind.spellings) (hc : c ∈ text)
    (hblank : Text.isBlank c = true) :
    ∃ quote body, IsQuote quote ∧ quote ∉ body ∧ text = quote :: body ++ [quote] := by
  by_cases hstring : kind = .string
  · subst hstring
    rcases h with h | h
    · exact ⟨'"', (mem_quoted.1 h).imp fun _ h => ⟨.inl rfl, h⟩⟩
    · exact ⟨'\'', (mem_quoted.1 h).imp fun _ h => ⟨.inr rfl, h⟩⟩
  · have hnone : ∀ d ∈ text, Text.isBlank d = false := by
      cases kind with
      | identifier => exact isBlank_of_isWord (mem_word.1 h.1)
      | keyword k =>
        obtain rfl : text = k.text.toList := h
        exact isBlank_of_isWord k.isWord_text
      | number => exact isBlank_of_number h
      | string => exact absurd rfl hstring
      | _ => exact isBlank_of_operator h
    rw [hnone c hc] at hblank
    cases hblank

/-! A token that is set off from what follows is read alike, whatever follows. -/

namespace Longest

variable {rest : List Char} {piece : Lexeme}

/-- A token is not a part of a string literal with its closing quote missing. -/
theorem not_open_quote {kind : TokenKind} {quote : Char} {written more body : List Char}
    (hspelled : written ∈ kind.spellings) (hquote : IsQuote quote) (hbody : quote ∉ body)
    (hmore : more ≠ []) : written ++ more ≠ quote :: body ++ [quote] := by
  intro heq
  cases written with
  | nil => exact Lexeme.ne_nil_of_mem_spellings hspelled rfl
  | cons c run =>
    obtain ⟨rfl, heq⟩ : c = quote ∧ run ++ more = body ++ [quote] := by simpa using heq
    have hrun : c ∉ run := by
      have hdrop := congrArg List.dropLast heq
      rw [List.dropLast_append_of_ne_nil hmore, List.dropLast_concat] at hdrop
      rw [← hdrop] at hbody
      exact fun h => hbody (List.mem_append_left _ h)
    obtain ⟨piece, hpiece, -⟩ := Lexeme.read?_covers hspelled (List.append_nil _)
    rw [Lexeme.read?_eq_none_iff.2 ⟨hquote, hrun⟩] at hpiece
    cases hpiece

theorem setOff (h : Longest text piece) (hrest : SetsOff rest) :
    Longest (piece.written ++ rest) { piece with rest } := by
  cases h with
  | taken text_eq spelled longest lexeme =>
    refine .taken rfl spelled ?_ lexeme
    rintro kind other hother ⟨tail, htail⟩
    obtain ⟨more, hwritten, -⟩ | ⟨more, hmore, hrest'⟩ := List.append_eq_append_iff.1 htail
    · simp [hwritten]
    cases more with
    | nil => simp [hmore]
    | cons b more =>
      -- a longer match holds a blank, so it is a string literal of which the token is a part
      have hblank : Text.isBlank b = true := hrest b (by simp [hrest'])
      obtain ⟨quote, body, hquote, hbody, heq⟩ := quoted_of_isBlank hother (by simp [hmore]) hblank
      rw [hmore] at heq
      exact absurd heq (not_open_quote spelled hquote hbody (List.cons_ne_nil b more))
  | invalid text_eq piece_eq quote unknown =>
    subst text_eq piece_eq
    refine .invalid rfl rfl quote ?_
    rintro kind other hother ⟨tail, htail⟩
    cases other with
    | nil => exact Lexeme.ne_nil_of_mem_spellings hother rfl
    | cons d more =>
      obtain ⟨rfl, hmore⟩ := List.cons.inj htail
      cases more with
      | nil => exact unknown kind [d] hother (by simp)
      | cons b more =>
        have hhead : rest = b :: (more ++ tail) := hmore.symm
        have hblank : Text.isBlank b = true := hrest b (by simp [hhead])
        obtain ⟨q, body, hq, -, heq⟩ := quoted_of_isBlank hother (by simp) hblank
        obtain rfl := (List.cons.inj heq).1
        exact quote hq

end Longest

/-- A token that is read alike wherever it is set off from what follows. -/
def Lexeme.StandsAlone (piece : Lexeme) : Prop :=
  ∀ rest, SetsOff rest → ∃ c behind, piece.written ++ rest = c :: behind ∧ StartsToken c behind ∧
    Longest (c :: behind) { piece with rest }

theorem Longest.standsAlone {c : Char} {behind : List Char} {piece : Lexeme}
    (h : Longest (c :: behind) piece) (hstart : StartsToken c behind) : piece.StandsAlone := by
  intro rest hrest
  have hlongest := h.setOff hrest
  have htext := h.text_eq
  cases hwritten : piece.written with
  | nil => exact absurd hwritten h.written_ne_nil
  | cons d run =>
    rw [hwritten] at htext hlongest
    obtain ⟨rfl, rfl⟩ := List.cons.inj htext
    refine ⟨c, run ++ rest, rfl, ⟨hstart.1, ?_⟩, hlongest⟩
    -- a `/` that ends a token is not followed by another one
    rintro ⟨hslash, hnext⟩
    cases run with
    | nil =>
      have hblank := hrest '/' hnext
      cases hblank
    | cons e run => exact hstart.2 ⟨hslash, hnext⟩

/-! The tokens of a source, and the same tokens in another layout. -/

def Lexeme.shape (piece : Lexeme) : Shape :=
  ⟨piece.kind, String.ofList piece.lexeme⟩

theorem Scans.pieces {before text : List Char} {result : Except Diagnostic (List Token)}
    (h : Scans before text result) : ∀ tokens, result = .ok tokens →
      ∃ pieces : List Lexeme, (∀ piece ∈ pieces, piece.StandsAlone) ∧
        writtenTokens (before ++ text) tokens = pieces.map Lexeme.written ∧
        tokens.map Token.shape = pieces.map Lexeme.shape ++ [.eof] := by
  induction h with
  | ended gap =>
    rintro _ ⟨⟩
    exact ⟨[], by simp, rfl, rfl⟩
  | unterminated =>
    intro tokens h
    cases h
  | @token before front behind c piece result gap starts longest _ ih =>
    intro tokens h
    cases result with
    | error d => cases h
    | ok more =>
      cases h
      obtain ⟨pieces, halone, hwritten, hshapes⟩ := ih more rfl
      have hmore : more ≠ [] := by
        rintro rfl
        simp at hshapes
      have hspan : (piece.token (.behind (before ++ front))).span =
        ⟨.behind (before ++ front), byteLength piece.written⟩ := rfl
      have hsource : before ++ (front ++ c :: behind) =
          before ++ front ++ piece.written ++ piece.rest := by
        rw [longest.text_eq]
        simp
      refine ⟨piece :: pieces, ?_, ?_, ?_⟩
      · exact List.forall_mem_cons.2 ⟨longest.standsAlone starts, halone⟩
      · rw [writtenTokens, List.dropLast_cons_of_ne_nil hmore, List.map_cons, List.map_cons,
          Tiling.start_of_span hspan, Tiling.endOffset_of_span hspan, hsource, slice_append,
          ← hwritten, writtenTokens]
      · rw [List.map_cons, List.map_cons, List.cons_append, hshapes]
        rfl

/-- A gap in front of a text is passed over. -/
theorem Scans.gap_append {before first text : List Char} {result : Except Diagnostic (List Token)}
    (hfirst : IsGap first) (h : Scans (before ++ first) text result) :
    Scans before (first ++ text) result := by
  cases h with
  | ended gap =>
    rw [List.append_assoc]
    exact .ended (.append hfirst gap)
  | @unterminated _ front _ _ gap opens unclosed =>
    rw [List.append_assoc before, ← List.append_assoc first]
    exact .unterminated (hfirst.append gap) opens unclosed
  | @token _ front _ _ _ _ gap starts longest rest =>
    rw [List.append_assoc before] at rest ⊢
    rw [← List.append_assoc first]
    exact .token (hfirst.append gap) starts longest rest

theorem Lexeme.StandsAlone.scans {piece : Lexeme} (h : piece.StandsAlone) {before rest : List Char}
    {tokens : List Token} (hrest : SetsOff rest)
    (hscan : Scans (before ++ piece.written) rest (.ok tokens)) :
    Scans before (piece.written ++ rest) (.ok (piece.token (.behind before) :: tokens)) := by
  obtain ⟨c, behind, htext, hstart, hlongest⟩ := h rest hrest
  have hbehind : Scans (before ++ [] ++ piece.written) rest (.ok tokens) := by
    simpa using hscan
  have htoken : Scans before ([] ++ c :: behind)
    (.ok (piece.token (.behind (before ++ [])) :: tokens)) := .token .nil hstart hlongest hbehind
  rw [htext]
  simpa using htoken

theorem scans_spread {separators : Nat → List Char} {after : List Char} {pieces : List Lexeme}
    (halone : ∀ piece ∈ pieces, piece.StandsAlone) (hseparators : ∀ i, IsSeparator (separators i))
    (hafter : after = [] ∨ IsSeparator after) (before : List Char) :
    ∃ tokens, Scans before (spread separators (pieces.map Lexeme.written) ++ after) (.ok tokens) ∧
      tokens.map Token.shape = pieces.map Lexeme.shape ++ [.eof] := by
  have hfinal : IsFinalGap after := by
    rcases hafter with rfl | h
    · exact .gap .nil
    · exact .gap h.gap
  have hoff : SetsOff after := by
    rcases hafter with rfl | h
    · simp [SetsOff]
    · simpa using h.setsOff_append []
  induction pieces generalizing separators before with
  | nil => exact ⟨_, .ended hfinal, rfl⟩
  | cons piece more ih =>
    rw [List.forall_mem_cons] at halone
    cases more with
    | nil =>
      refine ⟨_, halone.1.scans hoff (.ended hfinal), rfl⟩
    | cons next more =>
      have hsep := hseparators 0
      obtain ⟨tokens, hscan, hshapes⟩ :=
        ih halone.2 (fun i => hseparators (i + 1)) (before ++ piece.written ++ separators 0)
      have htext : spread separators ((piece :: next :: more).map Lexeme.written) ++ after =
          piece.written ++ (separators 0 ++
            (spread (fun i => separators (i + 1)) ((next :: more).map Lexeme.written) ++ after)) := by
        simp [spread]
      rw [htext]
      refine ⟨_, halone.1.scans (hsep.setsOff_append _) (hscan.gap_append hsep.gap), ?_⟩
      rw [List.map_cons, hshapes]
      rfl

/-! Programs of texts with the same tokens. -/

/-- The same error, with its span empty. -/
def ParseError.bare (e : ParseError) : ParseError :=
  ⟨{}, e.message⟩

/-- The same statement, with every span empty, and those of the errors of an error node too. -/
def Stmt.unplaced : Stmt → Stmt
  | .error _ errors => .error {} (errors.map ParseError.bare)
  | s => s.bare

/-- The same program, with every span of its trees and of its errors empty. -/
def Program.unplaced (p : Program) : Program :=
  ⟨p.statements.map Stmt.unplaced, p.errors.map ParseError.bare⟩

/-- What the parser makes of a statement is no error node. -/
theorem Stmt.Read.unplaced {s : Stmt} (h : s.Read) : s.unplaced = s.bare := by
  cases s with
  | error => cases h.node
  | _ => rfl

theorem ParseError.map_bare_eq {errors errors' : List ParseError}
    (h : errors.map (·.message) = errors'.map (·.message)) :
    errors.map ParseError.bare = errors'.map ParseError.bare := by
  have hbare : ParseError.bare = (fun message => ⟨{}, message⟩) ∘ (·.message) := rfl
  rw [hbare, ← List.map_map, ← List.map_map, h]

namespace Parser

variable {g g' : Grammar} {c d : Cursor} {bound : Nat}

/-- In texts with the same tokens the next kinds are the same. -/
theorem kind_of_trims_none (h : c.Trims .none d) : d.next.kind = c.next.kind := by
  cases h.joins with
  | ended left => exact absurd left (by simp [Cut.none])
  | same _ shape => exact kind_eq_of_shape shape

/-- A statement that fails in one text fails in the other, with the same messages. -/
theorem statement_fails (G : g.Tracks .none g') (S : g.Serves bound) (S' : g'.Serves bound)
    (h : c.Trims .none d) (hd : d.Ends) (hc : c.left < bound) (hbound : d.left < bound) {e : Failure}
    {m : Cursor} (hfail : g.statement c = .fail e m) :
    ∃ e' n, g'.statement d = .fail e' n ∧ e.errors.map (·.message) = e'.errors.map (·.message) := by
  have hproceeds := S.statement h.ends hc
  have hproceeds' := S'.statement hd hbound
  rw [Proceeds, hfail] at hproceeds
  have hlike := (G.statement h).tracks.fails (by simp [Cut.none]) e m hfail hproceeds.2
  rw [Proceeds] at hproceeds'
  cases hreply : g'.statement d with
  | ok => rw [hreply] at hlike; exact hlike.elim
  | fail e' n =>
    rw [hreply] at hlike hproceeds'
    exact ⟨e', n, rfl, hlike hproceeds'.2⟩

/-- Texts with the same tokens have the same program up to places. -/
theorem programFrom_unplaced (G : g.Tracks .none g') (S : g.Serves bound) (S' : g'.Serves bound)
    (R : g.Reads) (R' : g'.Reads) (n : Nat) (h : c.Trims .none d) (hd : d.Ends) (hc : c.left < bound)
    (hbound : d.left < bound) (hlexed : c.WellLexed) (hlexed' : d.WellLexed) :
    (programFrom g' n d).1.unplaced = (programFrom g n c).1.unplaced := by
  induction n generalizing c d with
  | zero => rfl
  | succ n ih =>
    have hskipped : c.skipSemicolons.Trims .none d.skipSemicolons := by
      obtain hpast | ⟨hleft, -⟩ | ⟨-, htrims⟩ := h.skipSemicolons
      · exact absurd hpast (by simp [Cut.none])
      · exact absurd hleft (by simp [Cut.none])
      · exact htrims
    have hskip := Cursor.before_skipSemicolons c
    have hskip' := Cursor.before_skipSemicolons d
    have hle := hskip.left_le h.ends
    have hle' := hskip'.left_le hd
    have hread := R.statement hlexed.skipSemicolons
    have hread' := R'.statement hlexed'.skipSemicolons
    have hproceeds := S.statement (hskip.ends h.ends) (by omega)
    unfold ReadsStmt Yields at hread hread'
    unfold Proceeds at hproceeds
    simp only [programFrom, kind_of_trims_none hskipped]
    by_cases heof : c.skipSemicolons.next.kind = .eof
    · simp only [if_pos heof]
    simp only [if_neg heof]
    cases hs : g.statement c.skipSemicolons with
    | fail e m =>
      obtain ⟨e', m', hs', hmessages⟩ := statement_fails G S S' hskipped (hskip'.ends hd) (by omega)
        (by omega) hs
      simp only [hs', Program.unplaced, List.map_cons, List.map_nil, Stmt.unplaced,
        ParseError.map_bare_eq hmessages]
    | ok s m =>
      obtain ⟨s', m', hs', hbare, hm, hbefore'⟩ := statement_continued (by simp [Cut.none]) G S' hskipped
        (hskip'.ends hd) (by omega) hs
      rw [hs] at hread hproceeds
      rw [hs'] at hread'
      have hrequires : s'.requiresSemicolon = s.requiresSemicolon := by
        rw [← Stmt.requiresSemicolon_bare, ← hbare, Stmt.requiresSemicolon_bare]
      have hplace : s'.unplaced = s.unplaced := by
        rw [hread.2.1.unplaced, hread'.2.1.unplaced, hbare]
      have hends' := hbefore'.ends (hskip'.ends hd)
      have hleft : m.left < c.skipSemicolons.left := hproceeds.2
      have hleft' := hbefore'.left_le (hskip'.ends hd)
      have hrest := ih hm hends' (by omega) (by omega) hread.1 hread'.1
      simp only [Program.unplaced, Program.mk.injEq] at hrest
      simp only [hs', hrequires, kind_of_trims_none hm]
      split
      · simp only [Program.unplaced, List.map_cons, List.map_nil, hplace]
        rfl
      · simp only [Program.unplaced, List.map_cons, hplace, hrest.1, hrest.2]

end Parser

/-- Sources with the same kinds and lexemes of tokens have the same program up to places. -/
theorem parseProgram_unplaced {source source' : String} {tokens tokens' : List Token}
    (h : tokenize source = .ok tokens) (h' : tokenize source' = .ok tokens')
    (hshapes : tokens'.map Token.shape = tokens.map Token.shape) :
    (parseProgram source').map Program.unplaced = (parseProgram source).map Program.unplaced := by
  have hends := Cursor.ends_ofTokens (endsOnce_tokensFrom h)
  have hends' := Cursor.ends_ofTokens (endsOnce_tokensFrom h')
  have hlength : tokens'.length = tokens.length := by simpa using congrArg List.length hshapes
  have hne (source : String) (tokens : List Token) (h : tokenize source = .ok tokens) : tokens ≠ [] := by
    rintro rfl
    exact (endsOnce_tokensFrom h).elim
  have hsame : (Cursor.ofTokens tokens').shapes = (Cursor.ofTokens tokens).shapes := by
    rw [Cursor.map_shape_ofTokens (hne _ _ h), Cursor.map_shape_ofTokens (hne _ _ h'), hshapes]
  have hleft : (Cursor.ofTokens tokens').left = (Cursor.ofTokens tokens).left := by
    simpa [Cursor.length_shapes] using congrArg List.length hsame
  have htrims : (Cursor.ofTokens tokens).Trims .none (Cursor.ofTokens tokens') := by
    refine .within (by simp [Cut.none]) hends ?_
    rw [hsame, List.take_of_length_le, Cut.none, List.append_nil]
    simp only [Cursor.length_shapes, Cut.none]
    omega
  have S := (Grammar.serves_ofDepth (2 * (Cursor.ofTokens tokens).left + 4)).1
  have hprogram := Parser.programFrom_unplaced (Grammar.tracked_ofDepth _ .none _) S S
    (Grammar.reads_ofDepth _) (Grammar.reads_ofDepth _) (tokens.length + 1) htrims hends' (by omega)
    (by omega) (Cursor.wellLexed_ofTokens h) (Cursor.wellLexed_ofTokens h')
  simp only [parseProgram, h, h', Except.map, Parser.program, Grammar.forCursor, hlength, hleft, hprogram]

/-- The tokens of a source, written in order with separators between them, and a gap and a separator
around them, are read as the same kinds and lexemes of tokens, and as the same program or the same error
up to places. -/
theorem layout_irrelevant {source : String} {tokens : List Token} {separators : Nat → List Char}
    {before after : List Char} (h : tokenize source = .ok tokens)
    (hseparators : ∀ i, IsSeparator (separators i)) (hbefore : IsGap before)
    (hafter : after = [] ∨ IsSeparator after) :
    let layout := String.ofList
      (before ++ (spread separators (writtenTokens source.toList tokens) ++ after))
    (∃ tokens', tokenize layout = .ok tokens' ∧
      tokens'.map Token.shape = tokens.map Token.shape) ∧
    (parseProgram layout).map Program.unplaced = (parseProgram source).map Program.unplaced := by
  intro layout
  obtain ⟨pieces, halone, hwritten, hshapes⟩ := (scans_tokenize source).pieces tokens h
  obtain ⟨tokens', hscan, hshapes'⟩ := scans_spread halone hseparators hafter ([] ++ before)
  have hlayout : layout.toList =
      before ++ (spread separators (pieces.map Lexeme.written) ++ after) := by
    rw [← hwritten]
    exact String.toList_ofList
  have htokens : tokenize layout = .ok tokens' := by
    have hwhole := hscan.gap_append hbefore
    rw [← hlayout] at hwhole
    exact hwhole.tokensFrom_eq _ (Nat.lt_succ_self _)
  have hsame : tokens'.map Token.shape = tokens.map Token.shape := by rw [hshapes, hshapes']
  exact ⟨⟨tokens', htokens, hsame⟩, parseProgram_unplaced h htokens hsame⟩

/-- The source `a/'b c'` on lines of its own, with a comment behind the `/`. -/
theorem layout_irrelevant_division :
    let source := "a/'b c'"
    let tokens : List Token := [⟨.identifier, "a", ⟨⟨0, 0, 0⟩, 1⟩⟩, ⟨.slash, "/", ⟨⟨0, 1, 1⟩, 1⟩⟩,
      ⟨.string, "b c", ⟨⟨0, 2, 2⟩, 5⟩⟩, ⟨.eof, "", ⟨⟨0, 7, 7⟩, 0⟩⟩]
    let layout := "//\na //\n/ //\n'b c'\n"
    tokenize source = .ok tokens ∧
    (∃ tokens', tokenize layout = .ok tokens' ∧
      tokens'.map Token.shape = tokens.map Token.shape) ∧
    (parseProgram layout).map Program.unplaced = (parseProgram source).map Program.unplaced := by
  intro source tokens layout
  have htokens : tokenize source = .ok tokens := by decide
  have hcomment : IsGap "//\n".toList := .comment (List.not_mem_nil) .nil
  have hseparator : IsSeparator " //\n".toList := ⟨.blank rfl hcomment, ' ', rfl, rfl⟩
  have hafter : IsSeparator "\n".toList := ⟨.blank rfl .nil, '\n', rfl, rfl⟩
  have hlayout : "//\n".toList ++ (spread (fun _ => " //\n".toList)
      (writtenTokens source.toList tokens) ++ "\n".toList) = layout.toList := by decide
  have h := layout_irrelevant htokens (fun _ => hseparator) hcomment (.inr hafter)
  rw [hlayout, String.ofList_toList] at h
  exact ⟨htokens, h⟩

end Scripting
