import Mathlib.Data.List.Induction
import Scripting.Proofs.Account.Program
import Scripting.Proofs.Tiling

/-!
Where a diagnostic points.

A span keeps the line and the column that were counted while the source was read, and a length in bytes.
It is shown with the line between the newlines around its offset, and with carets below it. Main
statements: the line and the columns of both agree (`diagnostics_point`), and there is one caret for
every spanned character if all of these are single bytes or no other follows on the line
(`carets_exact`).
-/

namespace Scripting

variable {source : String}

/-! Lines. -/

theorem length_splitOn (c : Char) (text : List Char) :
    (text.splitOn c).length = text.count c + 1 := by
  induction text with
  | nil => rfl
  | cons d text ih =>
    rw [List.splitOn_cons_eq_if_modifyHead]
    by_cases h : d = c
    · simp [h, ih]
    · simp [h, ih]

/-- A text without a newline is its last line; any other has a newline in front of it. -/
theorem lastLine_cases (text : List Char) :
    '\n' ∉ lastLine text ∧ (lastLine text = text ∨ ∃ front, text = front ++ '\n' :: lastLine text) := by
  induction text using List.reverseRecOn with
  | nil => exact ⟨nofun, .inl rfl⟩
  | append_singleton text c ih =>
    obtain ⟨hnewline, hcases⟩ := ih
    rw [lastLine_append_singleton]
    by_cases h : c = '\n'
    · rw [if_pos h, h]
      exact ⟨nofun, .inr ⟨text, rfl⟩⟩
    · rw [if_neg h]
      refine ⟨by simp [hnewline, Ne.symm h], ?_⟩
      rcases hcases with hwhole | ⟨front, hfront⟩
      · exact .inl (by rw [hwhole])
      · refine .inr ⟨front, ?_⟩
        rw [← List.cons_append, ← List.append_assoc, ← hfront]

/-- The first line of a text. -/
theorem getElem?_splitOn_zero {front : List Char} (h : '\n' ∉ front) (rest : List Char) :
    ((front ++ rest).splitOn '\n')[0]? = some (front ++ rest.takeWhile (· ≠ '\n')) := by
  have hrest := List.takeWhile_append_dropWhile (p := fun c : Char => decide (c ≠ '\n')) (l := rest)
  have hfirst : '\n' ∉ rest.takeWhile (· ≠ '\n') := by
    intro hmem
    simpa using List.mem_takeWhile_imp hmem
  have hline : '\n' ∉ front ++ rest.takeWhile (· ≠ '\n') := by
    simp only [List.mem_append, not_or]
    exact ⟨h, hfirst⟩
  cases hbehind : rest.dropWhile (· ≠ '\n') with
  | nil =>
    rw [hbehind, List.append_nil] at hrest
    rw [hrest] at hline ⊢
    rw [List.splitOn_eq_singleton hline]
    rfl
  | cons c more =>
    have hc := List.head?_dropWhile_not (fun c : Char => decide (c ≠ '\n')) rest
    rw [hbehind] at hc
    obtain rfl : c = '\n' := by simpa using hc
    rw [hbehind] at hrest
    rw [← hrest, ← List.append_assoc, List.splitOn_append_cons_self_of_not_mem hline, hrest]
    rfl

/-- The line on which a place is: what stands in front of it and behind it up to the next newlines. -/
theorem getElem?_splitOn_count (before rest : List Char) :
    ((before ++ rest).splitOn '\n')[before.count '\n']? =
      some (lastLine before ++ rest.takeWhile (· ≠ '\n')) := by
  obtain ⟨hlast, hwhole | ⟨front, hfront⟩⟩ := lastLine_cases before
  · rw [hwhole] at hlast ⊢
    rw [List.count_eq_zero.2 hlast]
    exact getElem?_splitOn_zero hlast rest
  · generalize lastLine before = last at hlast hfront
    subst hfront
    have hcount : (front ++ '\n' :: last).count '\n' = (front.splitOn '\n').length := by
      rw [length_splitOn, List.count_append, List.count_cons_self, List.count_eq_zero.2 hlast]
    rw [List.append_assoc, List.cons_append, List.splitOn_append_cons_self, hcount,
      List.getElem?_append_right (Nat.le_refl _), Nat.sub_self]
    exact getElem?_splitOn_zero hlast rest

/-- A place is on a line of a source, which is cut out between two offsets. None of the offsets cuts a
character. -/
structure Location.OnLine (p : Location) (source line : List Char) (lineStart lineEnd : Nat) : Prop where
  counted : (source.splitOn '\n')[p.line]? = some line
  starts : IsBoundary lineStart source
  placed : IsBoundary p.offset source
  ends : IsBoundary lineEnd source
  line_eq : slice lineStart lineEnd source = line
  padding : slice lineStart p.offset source = line.take p.column
  column : p.column ≤ line.length

/-- A place between two parts of a line. -/
theorem Location.onLine_of_parts {p : Location} {front head tail more : List Char}
    (hline : ((front ++ head ++ (tail ++ more)).splitOn '\n')[p.line]? = some (head ++ tail))
    (hcolumn : p.column = head.length) (hoffset : p.offset = byteLength (front ++ head)) :
    p.OnLine (front ++ head ++ (tail ++ more)) (head ++ tail) (byteLength front)
      (byteLength (front ++ (head ++ tail))) := by
  have hsource : front ++ head ++ (tail ++ more) = front ++ (head ++ tail) ++ more := by simp
  constructor
  case counted => exact hline
  case starts =>
    rw [List.append_assoc]
    exact isBoundary_append front _
  case placed =>
    rw [hoffset]
    exact isBoundary_append (front ++ head) _
  case ends =>
    rw [hsource]
    exact isBoundary_append _ more
  case line_eq =>
    rw [hsource]
    exact slice_append front (head ++ tail) more
  case padding =>
    rw [hoffset, hcolumn, List.take_left]
    exact slice_append front head _
  case column =>
    rw [hcolumn, List.length_append]
    exact Nat.le_add_right _ _

/-- The place behind a part of the source. -/
theorem Location.exists_onLine_behind (before rest : List Char) :
    ∃ lineStart lineEnd, (Location.behind before).OnLine (before ++ rest)
      (lastLine before ++ rest.takeWhile (· ≠ '\n')) lineStart lineEnd := by
  have hline := getElem?_splitOn_count before rest
  obtain ⟨front, hfront⟩ : ∃ front, before = front ++ lastLine before := by
    obtain ⟨-, hwhole | ⟨front, hfront⟩⟩ := lastLine_cases before
    · exact ⟨[], hwhole.symm⟩
    · exact ⟨front ++ ['\n'], by rw [List.append_assoc]; exact hfront⟩
  have hsource : before ++ rest = front ++ lastLine before ++
      (rest.takeWhile (· ≠ '\n') ++ rest.dropWhile (· ≠ '\n')) := by
    rw [← hfront, List.takeWhile_append_dropWhile]
  rw [hsource] at hline ⊢
  exact ⟨_, _, onLine_of_parts hline rfl (congrArg byteLength hfront)⟩

/-! What is shown for a span. -/

/-- A line of a source, and below it some carets behind some columns. -/
def underlined (line : List Char) (column carets : Nat) : String :=
  " | " ++ String.ofList line ++ "\n | " ++ String.ofList (List.replicate column ' ') ++
    String.ofList (List.replicate carets '^') ++ "\n"

/-- A span in a source: the text that it covers, and what stands in front of it and behind it. -/
structure Span.Marks (span : Span) (source before covered behind : List Char) : Prop where
  source_eq : source = before ++ (covered ++ behind)
  start : span.start = .behind before
  length : span.length = byteLength covered

/-- A span whose offsets, line and column belong together. -/
def Span.IsPlaced (span : Span) (source : List Char) : Prop :=
  ∃ before covered behind, span.Marks source before covered behind

/-- The spanned text on the line on which the span starts. -/
def Span.firstLine (span : Span) (source : String) : List Char :=
  (slice span.start.offset span.endOffset source.toList).takeWhile (· ≠ '\n')

namespace Span.Marks

variable {span : Span} {before covered behind : List Char}
  (h : span.Marks source.toList before covered behind)
include h

theorem underline_eq :
    span.underline source =
      underlined (lastLine before ++ (covered ++ behind).takeWhile (· ≠ '\n')) span.start.column
        (max 1 (min span.length ((covered ++ behind).takeWhile (· ≠ '\n')).length)) := by
  have hcarets (length available : Nat) :
      max 1 (min length (max available 1)) = max 1 (min length available) := by omega
  have hoffset : span.start.offset = byteLength before := by rw [h.start]; rfl
  have hcolumn : span.start.column = (lastLine before).length := by rw [h.start]; rfl
  unfold Span.underline underlined
  rw [hoffset, h.source_eq, splitAtByte_append, hcolumn, ← String.toList_inj]
  simp [hcarets]

theorem firstLine_eq : span.firstLine source = covered.takeWhile (· ≠ '\n') := by
  have hstart : span.start.offset = byteLength before := by rw [h.start]; rfl
  have hend : span.endOffset = byteLength (before ++ covered) := by
    rw [Span.endOffset, hstart, h.length, byteLength_append]
  rw [Span.firstLine, hstart, hend, h.source_eq, ← List.append_assoc, slice_append]

end Span.Marks

/-! Characters and bytes. -/

theorem length_le_byteLength (text : List Char) : text.length ≤ byteLength text := by
  induction text with
  | nil => exact Nat.le_refl 0
  | cons c text ih =>
    have hsize := c.utf8Size_pos
    rw [List.length_cons, byteLength]
    omega

/-- A text has as many bytes as characters only if all of these are single bytes. -/
theorem byteLength_eq_length_iff (text : List Char) :
    byteLength text = text.length ↔ ∀ c ∈ text, c.utf8Size = 1 := by
  induction text with
  | nil => simp [byteLength]
  | cons c text ih =>
    have hsize := c.utf8Size_pos
    have hle := length_le_byteLength text
    rw [List.forall_mem_cons, ← ih, byteLength, List.length_cons]
    omega

/-- The rest of the line behind a piece of text. If there is any, the piece has no newline. -/
theorem exists_takeWhile_append (p : Char → Bool) (piece behind : List Char) :
    ∃ rest, (piece ++ behind).takeWhile p = piece.takeWhile p ++ rest ∧
      (rest = [] ∨ piece.takeWhile p = piece) := by
  rw [List.takeWhile_append]
  split
  · rename_i hlength
    have hwhole : piece.takeWhile p = piece :=
      (List.takeWhile_prefix p).eq_of_length hlength
    exact ⟨behind.takeWhile p, by rw [hwhole], .inr hwhole⟩
  · exact ⟨[], (List.append_nil _).symm, .inl rfl⟩

theorem carets_eq_iff (first rest : List Char) :
    max 1 (min (byteLength first) (first.length + rest.length)) = max 1 first.length ↔
      rest = [] ∨ ∀ c ∈ first, c.utf8Size = 1 := by
  have hle := length_le_byteLength first
  have hempty : first.length = 0 → byteLength first = 0 := by
    intro h
    rw [List.length_eq_zero_iff.1 h]
    rfl
  rw [← byteLength_eq_length_iff, ← List.length_eq_zero_iff]
  omega

namespace Span.Marks

variable {span : Span} {before covered behind : List Char}

/-- The carets, counted by the spanned text on the line and by the rest of the line behind it. -/
theorem exists_carets (h : span.Marks source.toList before covered behind) :
    ∃ rest, (covered ++ behind).takeWhile (· ≠ '\n') = span.firstLine source ++ rest ∧
      max 1 (min span.length ((covered ++ behind).takeWhile (· ≠ '\n')).length) =
        max 1 (min (byteLength (span.firstLine source))
          ((span.firstLine source).length + rest.length)) := by
  obtain ⟨rest, hrest, hcases⟩ := exists_takeWhile_append (· ≠ '\n') covered behind
  rw [h.firstLine_eq, h.length]
  refine ⟨rest, hrest, ?_⟩
  rw [hrest, List.length_append]
  rcases hcases with rfl | hwhole
  · have hle := length_le_byteLength (covered.takeWhile (· ≠ '\n'))
    have hcovered : byteLength (covered.takeWhile (· ≠ '\n')) ≤ byteLength covered := by
      conv_rhs => rw [← List.takeWhile_append_dropWhile (p := (· ≠ '\n')) (l := covered)]
      rw [byteLength_append]
      exact Nat.le_add_right _ _
    rw [List.length_nil, Nat.add_zero, Nat.min_eq_right (Nat.le_trans hle hcovered),
      Nat.min_eq_right hle]
  · rw [hwhole]

end Span.Marks

/-! The spans that reading a source produces. -/

/-- A mistake that is reported for a source. -/
inductive Diagnostic.ReportedIn (source : String) : Diagnostic → Prop where
  | lexer {d : Diagnostic} (h : tokenize source = .error d) : ReportedIn source d
  | parser {program : Program} {d : Diagnostic} (h : parseProgram source = .ok program)
      (hd : d ∈ program.diagnostics) : ReportedIn source d

/-- The span of a token of a source, or of a mistake in it. -/
inductive Span.ProducedBy (source : String) : Span → Prop where
  | token {tokens : List Token} {t : Token} (h : tokenize source = .ok tokens) (ht : t ∈ tokens) :
      ProducedBy source t.span
  | diagnostic {d : Diagnostic} {span : Span} (h : d.ReportedIn source) (hspan : d.span = some span) :
      ProducedBy source span

/-- What a scan gives has placed spans. -/
def PlacedIn (source : List Char) : Except Diagnostic (List Token) → Prop
  | .ok tokens => ∀ t ∈ tokens, t.span.IsPlaced source
  | .error d => ∃ span, d.span = some span ∧ span.IsPlaced source

theorem Scans.placedIn {before text : List Char} {result : Except Diagnostic (List Token)}
    (h : Scans before text result) : PlacedIn (before ++ text) result := by
  induction h with
  | @ended before text _ =>
    intro t ht
    obtain rfl := List.mem_singleton.1 ht
    exact ⟨before ++ text, [], [], by simp, rfl, rfl⟩
  | @unterminated before front behind quote _ _ _ =>
    exact ⟨_, rfl, before ++ front, quote :: behind, [], by simp, rfl, rfl⟩
  | @token before front behind c piece result _ _ longest _ ih =>
    have hsource : before ++ (front ++ c :: behind) =
        before ++ front ++ (piece.written ++ piece.rest) := by
      rw [← longest.text_eq, List.append_assoc]
    rw [hsource]
    rw [List.append_assoc (before ++ front)] at ih
    cases result with
    | error d => exact ih
    | ok more =>
      have htoken : (piece.token (.behind (before ++ front))).span.IsPlaced
          (before ++ front ++ (piece.written ++ piece.rest)) :=
        ⟨before ++ front, piece.written, piece.rest, rfl, rfl, rfl⟩
      exact List.forall_mem_cons.2 ⟨htoken, ih⟩

theorem Diagnostic.ReportedIn.exists_span {d : Diagnostic} (h : d.ReportedIn source) :
    ∃ span, d.span = some span ∧ span.IsPlaced source.toList := by
  have hplaced := (scans_tokenize source).placedIn
  cases h with
  | lexer h =>
    rw [h] at hplaced
    exact hplaced
  | @parser program _ h hd =>
    unfold parseProgram at h
    split at h
    · rename_i tokens htokens
      cases h
      rw [htokens] at hplaced
      obtain ⟨e, he, rfl⟩ := List.mem_map.1 hd
      obtain ⟨t, ht, hspan⟩ := (Parser.verdict_program htokens).place_of_mem he
      exact ⟨e.span, rfl, hspan ▸ hplaced t ht⟩
    · cases h

theorem Span.ProducedBy.isPlaced {span : Span} (h : span.ProducedBy source) :
    span.IsPlaced source.toList := by
  cases h with
  | @token tokens t h ht =>
    have hplaced := (scans_tokenize source).placedIn
    rw [h] at hplaced
    exact hplaced t ht
  | diagnostic h hspan =>
    obtain ⟨span', hspan', hplaced⟩ := h.exists_span
    rw [hspan] at hspan'
    cases hspan'
    exact hplaced

/-- A placed span is shown with its line, and with carets that stay on it. -/
theorem Span.IsPlaced.exists_underlined {span : Span} (h : span.IsPlaced source.toList) :
    ∃ line lineStart lineEnd rest carets, span.start.OnLine source.toList line lineStart lineEnd ∧
      line.drop span.start.column = span.firstLine source ++ rest ∧
      span.underline source = underlined line span.start.column carets ∧
      carets = max 1 (min span.length (line.length - span.start.column)) ∧
      carets = max 1 (min (byteLength (span.firstLine source))
        ((span.firstLine source).length + rest.length)) := by
  obtain ⟨before, covered, behind, h⟩ := h
  obtain ⟨rest, hrest, hcarets⟩ := h.exists_carets
  obtain ⟨lineStart, lineEnd, honLine⟩ := Location.exists_onLine_behind before (covered ++ behind)
  rw [← h.source_eq, ← h.start] at honLine
  have hcolumn : span.start.column = (lastLine before).length := by rw [h.start]; rfl
  refine ⟨_, lineStart, lineEnd, rest, _, honLine, ?_, h.underline_eq, ?_, hcarets⟩
  · rw [hcolumn, List.drop_left, hrest]
  · rw [hcolumn, List.length_append, Nat.add_sub_cancel_left]

/-- A diagnostic is shown below its line and column with the source line of that number, and with carets
from that column on. They do not go beyond the end of the line, unless the span starts there and a
single one is shown. The line is cut out between characters. -/
theorem diagnostics_point {source : String} {d : Diagnostic} (h : d.ReportedIn source) :
    ∃ span line lineStart lineEnd carets, d.span = some span ∧
      span.start.OnLine source.toList line lineStart lineEnd ∧
      d.render source = toString (span.start.line + 1) ++ ":" ++ toString (span.start.column + 1) ++
        ": " ++ d.message ++ "\n" ++ underlined line span.start.column carets ∧
      1 ≤ carets ∧
      (span.start.column + carets ≤ line.length ∨
        span.start.column = line.length ∧ carets = 1) := by
  obtain ⟨span, hspan, hplaced⟩ := h.exists_span
  obtain ⟨line, lineStart, lineEnd, -, carets, honLine, -, hshown, hcarets, -⟩ :=
    hplaced.exists_underlined
  have hcolumn := honLine.column
  refine ⟨span, line, lineStart, lineEnd, carets, hspan, honLine, ?_, by omega, by omega⟩
  rw [Diagnostic.render, hspan, ← hshown]
  rfl

/-- A string literal that is never closed, behind a line with a wide character. -/
theorem diagnostics_point_unclosed :
    tokenize "é\n 'ü" =
      .error ⟨.lexer, "Unterminated string literal", some ⟨⟨1, 1, 4⟩, 3⟩⟩ ∧
    ∃ line lineStart lineEnd carets,
      (⟨1, 1, 4⟩ : Location).OnLine "é\n 'ü".toList line lineStart lineEnd ∧
      Diagnostic.render ⟨.lexer, "Unterminated string literal", some ⟨⟨1, 1, 4⟩, 3⟩⟩ "é\n 'ü" =
        "2:2: Unterminated string literal\n" ++ underlined line 1 carets := by
  have htokens : tokenize "é\n 'ü" =
      .error ⟨.lexer, "Unterminated string literal", some ⟨⟨1, 1, 4⟩, 3⟩⟩ := by decide
  obtain ⟨span, line, lineStart, lineEnd, carets, hspan, honLine, hrender, -⟩ :=
    diagnostics_point (.lexer htokens)
  cases hspan
  exact ⟨htokens, line, lineStart, lineEnd, carets, honLine, hrender⟩

/-- There is a caret for every byte of the spanned text on its first line, up to the end of this line,
and at least one. So there is one for every spanned character exactly if nothing follows on the line or
all spanned characters of the line are single bytes. -/
theorem carets_exact {source : String} {span : Span} (h : span.ProducedBy source) :
    ∃ line lineStart lineEnd rest carets, span.start.OnLine source.toList line lineStart lineEnd ∧
      line.drop span.start.column = span.firstLine source ++ rest ∧
      span.underline source = underlined line span.start.column carets ∧
      carets = max 1 (min (byteLength (span.firstLine source))
        ((span.firstLine source).length + rest.length)) ∧
      (carets = max 1 (span.firstLine source).length ↔
        rest = [] ∨ ∀ c ∈ span.firstLine source, c.utf8Size = 1) := by
  obtain ⟨line, lineStart, lineEnd, rest, carets, honLine, hline, hshown, -, hcarets⟩ :=
    h.isPlaced.exists_underlined
  refine ⟨line, lineStart, lineEnd, rest, carets, honLine, hline, hshown, hcarets, ?_⟩
  rw [hcarets]
  exact carets_eq_iff _ _

/-- A string literal with a wide character at the end of a line. -/
theorem carets_exact_lineEnd :
    tokenize "'é'" = .ok [⟨.string, "é", ⟨⟨0, 0, 0⟩, 4⟩⟩, ⟨.eof, "", ⟨⟨0, 3, 4⟩, 0⟩⟩] ∧
    (⟨⟨0, 0, 0⟩, 4⟩ : Span).firstLine "'é'" = "'é'".toList ∧
    ∃ line rest carets, line.drop 0 = "'é'".toList ++ rest ∧
      (⟨⟨0, 0, 0⟩, 4⟩ : Span).underline "'é'" = underlined line 0 carets ∧
      (carets = 3 ↔ rest = [] ∨ ∀ c ∈ "'é'".toList, c.utf8Size = 1) := by
  have htokens : tokenize "'é'" =
      .ok [⟨.string, "é", ⟨⟨0, 0, 0⟩, 4⟩⟩, ⟨.eof, "", ⟨⟨0, 3, 4⟩, 0⟩⟩] := by decide
  have hfirst : (⟨⟨0, 0, 0⟩, 4⟩ : Span).firstLine "'é'" = "'é'".toList := by decide
  obtain ⟨line, -, -, rest, carets, -, hline, hshown, -, hcarets⟩ :=
    carets_exact (.token htokens (List.mem_cons_self ..))
  rw [hfirst] at hline hcarets
  exact ⟨htokens, hfirst, line, rest, carets, hline, hshown, hcarets⟩

/-- A wide character with something behind it has two carets. -/
theorem carets_beyond_character :
    ∃ span : Span, span.ProducedBy "é x" ∧ span.firstLine "é x" = ['é'] ∧
      span.underline "é x" = underlined "é x".toList 0 2 := by
  have htokens : tokenize "é x" = .ok [⟨.invalid, "é", ⟨⟨0, 0, 0⟩, 2⟩⟩,
      ⟨.identifier, "x", ⟨⟨0, 2, 3⟩, 1⟩⟩, ⟨.eof, "", ⟨⟨0, 3, 4⟩, 0⟩⟩] := by decide
  exact ⟨⟨⟨0, 0, 0⟩, 2⟩, .token htokens (List.mem_cons_self ..), by decide, by decide⟩

end Scripting
