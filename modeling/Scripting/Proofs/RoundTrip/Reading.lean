import Scripting.Proofs.RoundTrip.Shape
import Scripting.Token.Lexer

/-!
Reading one token after the other: what a text reads as, from its first token and the text behind it.
-/

namespace Scripting

variable {c : Char}

namespace Lexeme

/-- Holds for the texts of identifiers and keywords. -/
def isWord : List Char → Bool
  | [] => false
  | c :: rest => isWordStart c && rest.all isWordPart

end Lexeme

/-- Holds for the texts of identifiers. -/
def isName (name : String) : Bool :=
  Lexeme.isWord name.toList && (Keyword.ofText? name).isNone

/-- A text whose tokens have the given shapes, the last of them `eof`. -/
def ReadsAs (text : List Char) (shapes : List Shape) : Prop :=
  ∀ limit p, text.length < limit →
    ∃ tokens, tokensFrom limit p text = .ok tokens ∧ tokens.map Token.shape = shapes

/-- A text that does not go on with a character of a word. -/
def Apart (text : List Char) : Prop :=
  ∀ c ∈ text.head?, Lexeme.isWordPart c = false

/-- A character that starts a token and no comment, with the text behind it. -/
def StartsToken (c : Char) (behind : List Char) : Prop :=
  Text.isBlank c = false ∧ ¬(c = '/' ∧ behind.head? = some '/')

theorem splitGap_of_startsToken {behind : List Char} (h : StartsToken c behind) :
    splitGap false (c :: behind) = ([], c :: behind) := by
  obtain ⟨hblank, hcomment⟩ := h
  simp [splitGap, hblank, hcomment]

namespace ReadsAs

variable {text behind rest : List Char} {shapes : List Shape}

theorem nil : ReadsAs [] [.eof] := by
  intro limit p h
  obtain ⟨limit, rfl⟩ : ∃ n, limit = n + 1 := ⟨limit - 1, by simp at h; omega⟩
  exact ⟨_, rfl, rfl⟩

theorem blank (h : ReadsAs rest shapes) : ReadsAs (' ' :: rest) shapes := by
  intro limit p hlimit
  obtain ⟨tokens, htokens, hshapes⟩ := h limit (p.advance ' ') (by simp at hlimit; omega)
  obtain ⟨limit, rfl⟩ : ∃ n, limit = n + 1 := ⟨limit - 1, by simp at hlimit; omega⟩
  refine ⟨tokens, ?_, hshapes⟩
  rw [← htokens]
  simp [tokensFrom, splitGap, Text.isBlank, Location.after]

/-- A token in front of a text that reads. -/
theorem token {piece : Lexeme} (hstart : StartsToken c behind)
    (hread : Lexeme.read? c behind = some piece) (hrest : piece.rest.length ≤ behind.length)
    (h : ReadsAs piece.rest shapes) :
    ReadsAs (c :: behind) (⟨piece.kind, String.ofList piece.lexeme⟩ :: shapes) := by
  intro limit p hlimit
  obtain ⟨limit, rfl⟩ : ∃ n, limit = n + 1 := ⟨limit - 1, by simp at hlimit; omega⟩
  obtain ⟨tokens, htokens, hshapes⟩ := h limit (p.after piece.written) (by simp at hlimit; omega)
  refine ⟨piece.token p :: tokens, ?_, ?_⟩
  · simp only [tokensFrom, splitGap_of_startsToken hstart, hread, Location.after, List.foldl_nil]
    rw [← Location.after, htokens]
  · simp [hshapes, Token.shape, Lexeme.token]

end ReadsAs

/-! Characters. -/

theorem Lexeme.isWordStart_bounds (h : Lexeme.isWordStart c = true) :
    (97 ≤ c.toNat ∧ c.toNat ≤ 122) ∨ (65 ≤ c.toNat ∧ c.toNat ≤ 90) ∨ c.toNat = 95 := by
  simp only [Lexeme.isWordStart, Bool.or_eq_true, Bool.and_eq_true, decide_eq_true_eq, Char.le_def,
    UInt32.le_iff_toNat_le] at h
  obtain (h | h) | rfl := h
  · exact .inl h
  · exact .inr (.inl h)
  · exact .inr (.inr rfl)

theorem Text.isDigitOf_iff_bounds : Text.isDigitOf 10 c = true ↔ 48 ≤ c.toNat ∧ c.toNat ≤ 57 := by
  simp only [Text.isDigitOf, Text.digitValue?, Char.le_def, UInt32.le_iff_toNat_le,
    Char.toNat, Bool.and_eq_true, decide_eq_true_eq]
  grind

/-- The digits of every base are characters of words. -/
theorem Lexeme.isWordPart_of_isDigitOf {base : Nat} (h : Text.isDigitOf base c = true) :
    Lexeme.isWordPart c = true := by
  simp only [Text.isDigitOf, Text.digitValue?, Lexeme.isWordPart, Lexeme.isWordStart, Char.le_def,
    UInt32.le_iff_toNat_le, Bool.or_eq_true, Bool.and_eq_true, decide_eq_true_eq] at h ⊢
  grind

/-- A run of characters that satisfy `p` ends where the next one does not. -/
theorem takeWhile_append_eq {p : Char → Bool} {run rest : List Char} (hrun : ∀ c ∈ run, p c = true)
    (hrest : ∀ c ∈ rest.head?, p c = false) : (run ++ rest).takeWhile p = run := by
  rw [List.takeWhile_append_of_pos hrun]
  cases rest with
  | nil => simp
  | cons c rest => simp [hrest c rfl]

theorem dropWhile_append_eq {p : Char → Bool} {run rest : List Char} (hrun : ∀ c ∈ run, p c = true)
    (hrest : ∀ c ∈ rest.head?, p c = false) : (run ++ rest).dropWhile p = rest := by
  rw [List.dropWhile_append_of_pos hrun]
  cases rest with
  | nil => rfl
  | cons c rest => simp [hrest c rfl]

theorem startsToken_of_isDigitOf {behind : List Char} (h : Text.isDigitOf 10 c = true) :
    StartsToken c behind := by
  have hbounds := Text.isDigitOf_iff_bounds.1 h
  refine ⟨by simp [Text.isBlank]; omega, ?_⟩
  rintro ⟨rfl, -⟩
  simp at hbounds

namespace Lexeme

theorem read?_of_isDigit {behind : List Char} (h : Text.isDigitOf 10 c = true) :
    read? c behind = some (number c behind) := by
  have hbounds := Text.isDigitOf_iff_bounds.1 h
  have hword : isWordStart c = false := by
    cases hstart : isWordStart c with
    | false => rfl
    | true =>
      have := isWordStart_bounds hstart
      omega
  simp [read?, hword, h]

/-- A number is decimal, unless an `x` stands behind a `0`. -/
theorem number_eq_digits {text : List Char}
    (h : ¬(c = '0' ∧ (text.head? = some 'x' ∨ text.head? = some 'X'))) :
    number c text = digits 10 [c] text := by
  unfold number
  split
  · exact absurd ⟨rfl, .inl rfl⟩ h
  · exact absurd ⟨rfl, .inr rfl⟩ h
  · rfl

/-- Neither a decimal digit nor what follows a number is the `x` of a hexadecimal one. -/
theorem number_of_decimal {run rest : List Char} (hrun : ∀ d ∈ run, Text.isDigitOf 10 d = true)
    (hrest : Apart rest) : number c (run ++ rest) = digits 10 [c] (run ++ rest) := by
  have hhead : ∀ d ∈ (run ++ rest).head?, Text.isDigitOf 10 d = true ∨ isWordPart d = false := by
    cases run with
    | nil => exact fun d hd => .inr (hrest d hd)
    | cons e run => exact fun d hd => .inl (hrun d (by simp_all))
  apply number_eq_digits
  rintro ⟨-, hx | hx⟩ <;> exact absurd (hhead _ hx) (by decide)

theorem digits_of_apart {base : Nat} {taken run rest : List Char}
    (hrun : ∀ d ∈ run, Text.isDigitOf base d = true) (hrest : Apart rest) :
    digits base taken (run ++ rest) = .plain .number (taken ++ run) rest := by
  have hafter : ∀ d ∈ rest.head?, Text.isDigitOf base d = false := by
    intro d hd
    cases hdigit : Text.isDigitOf base d with
    | false => rfl
    | true =>
      have hpart := isWordPart_of_isDigitOf hdigit
      rw [hrest d hd] at hpart
      cases hpart
  rw [digits, takeWhile_append_eq hrun hafter, dropWhile_append_eq hrun hafter]

end Lexeme

theorem Keyword.isWord_text (k : Keyword) : Lexeme.isWord k.text.toList = true := by
  cases k <;> decide

namespace ReadsAs

variable {text rest : List Char} {shapes : List Shape}

/-! Words. -/

theorem word {name : String} (hname : Lexeme.isWord name.toList = true) (hrest : Apart rest)
    (h : ReadsAs rest shapes) : ReadsAs (name.toList ++ rest) (.word name :: shapes) := by
  cases hchars : name.toList with
  | nil => simp [hchars, Lexeme.isWord] at hname
  | cons c run =>
    simp only [hchars, Lexeme.isWord, Bool.and_eq_true, List.all_eq_true] at hname
    obtain ⟨hc, hrun⟩ := hname
    have hbounds := Lexeme.isWordStart_bounds hc
    have hread : Lexeme.read? c (run ++ rest) = some (Lexeme.word c (run ++ rest)) := by
      simp [Lexeme.read?, hc]
    have hlexeme : String.ofList (c :: run) = name := by rw [← hchars, String.ofList_toList]
    have hword : Lexeme.word c (run ++ rest) =
        .plain (Shape.word name).kind (c :: run) rest := by
      simp only [Lexeme.word, takeWhile_append_eq hrun hrest, dropWhile_append_eq hrun hrest,
        hlexeme]
      rfl
    have hstart : StartsToken c (run ++ rest) := by
      refine ⟨by simp [Text.isBlank]; omega, ?_⟩
      rintro ⟨rfl, -⟩
      simp at hbounds
    rw [hword] at hread
    have htoken := token hstart hread (by simp [Lexeme.plain]) h
    simpa [Lexeme.plain, Shape.word, hlexeme] using htoken

theorem keyword (k : Keyword) (hrest : Apart rest) (h : ReadsAs rest shapes) :
    ReadsAs (k.text.toList ++ rest) (.keyword k :: shapes) := by
  have hkind : Shape.word k.text = .keyword k := by cases k <;> rfl
  rw [← hkind]
  exact word k.isWord_text hrest h

theorem identifier {name : String} (hname : isName name = true) (hrest : Apart rest)
    (h : ReadsAs rest shapes) : ReadsAs (name.toList ++ rest) (.identifier name :: shapes) := by
  simp only [isName, Bool.and_eq_true, Option.isNone_iff_eq_none] at hname
  have hkind : Shape.word name = .identifier name := by
    simp [Shape.word, Shape.identifier, hname.2]
  rw [← hkind]
  exact word hname.1 hrest h

/-! Numbers and strings. -/

theorem digits {run : List Char} (hc : Text.isDigitOf 10 c = true)
    (hrun : ∀ d ∈ run, Text.isDigitOf 10 d = true) (hrest : Apart rest) (h : ReadsAs rest shapes) :
    ReadsAs (c :: run ++ rest) (⟨.number, String.ofList (c :: run)⟩ :: shapes) := by
  have hread : Lexeme.read? c (run ++ rest) = some (.plain .number (c :: run) rest) := by
    rw [Lexeme.read?_of_isDigit hc, Lexeme.number_of_decimal hrun hrest,
      Lexeme.digits_of_apart hrun hrest]
    rfl
  exact token (startsToken_of_isDigitOf hc) hread (by simp [Lexeme.plain]) h

/-- The digits of a number. -/
theorem nat (n : Nat) (hrest : Apart rest) (h : ReadsAs rest shapes) :
    ReadsAs ((toString (n : Int)).toList ++ rest) (.number n :: shapes) := by
  have hdigits : ∀ d ∈ Nat.toDigits 10 n, Text.isDigitOf 10 d = true := by
    intro d hd
    have hdigit := Nat.isDigit_of_mem_toDigits (by omega) (by omega) hd
    simp only [Char.isDigit, ge_iff_le, Bool.and_eq_true, decide_eq_true_eq,
      UInt32.le_iff_toNat_le] at hdigit
    exact Text.isDigitOf_iff_bounds.2 hdigit
  have htext : toString (n : Int) = String.ofList (Nat.toDigits 10 n) :=
    Nat.toString_eq_ofList_toDigits
  rw [Shape.number, htext, String.toList_ofList]
  cases hrun : Nat.toDigits 10 n with
  | nil => exact absurd hrun Nat.toDigits_ne_nil
  | cons c run =>
    rw [hrun] at hdigits
    exact digits (hdigits c (by simp)) (fun d hd => hdigits d (by simp [hd])) hrest h

theorem string {text : String} (htext : text.toList.contains '"' = false)
    (h : ReadsAs rest shapes) :
    ReadsAs ('"' :: (text.toList ++ '"' :: rest)) (.string text :: shapes) := by
  have hbody : ∀ c ∈ text.toList, decide (c ≠ '"') = true := by
    intro c hc
    simp only [List.contains_eq_mem, decide_eq_false_iff_not] at htext
    simp only [ne_eq, decide_not, Bool.not_eq_eq_eq_not, Bool.not_true, decide_eq_false_iff_not]
    rintro rfl
    exact htext hc
  have hclose : ∀ c ∈ ('"' :: rest).head?, decide (c ≠ '"') = false := by simp
  have hread : Lexeme.read? '"' (text.toList ++ '"' :: rest) =
      some ⟨.string, '"' :: text.toList ++ ['"'], text.toList, rest⟩ := by
    have hquote : Lexeme.read? '"' (text.toList ++ '"' :: rest) =
        Lexeme.quoted? '"' (text.toList ++ '"' :: rest) := rfl
    rw [hquote, Lexeme.quoted?, takeWhile_append_eq hbody hclose, dropWhile_append_eq hbody hclose]
  have hstart : StartsToken '"' (text.toList ++ '"' :: rest) := ⟨by decide, by simp⟩
  simpa [Shape.string] using token hstart hread (by simp; omega) h

/-! Operators. -/

/-- A character that starts an operator. -/
def isMark (c : Char) : Bool :=
  !Lexeme.isWordStart c && !Text.isDigitOf 10 c && c ≠ '"' && c ≠ '\'' && !Text.isBlank c

theorem read?_of_isMark (hc : isMark c = true) (behind : List Char) :
    Lexeme.read? c behind = some (Lexeme.operator c behind) := by
  simp only [isMark, Bool.and_eq_true, Bool.not_eq_true', decide_eq_true_eq] at hc
  simp [Lexeme.read?, hc]

/-- An operator of one character, where no operator of two characters is written. -/
theorem single (hc : isMark c = true) (hslash : c ≠ '/' ∨ rest.head? ≠ some '/')
    (hpair : ∀ d ∈ rest.head?, Lexeme.pair? c d = none) (h : ReadsAs rest shapes) :
    ReadsAs (c :: rest) (⟨Lexeme.single c, String.ofList [c]⟩ :: shapes) := by
  have hread : Lexeme.read? c rest = some (.plain (Lexeme.single c) [c] rest) := by
    rw [read?_of_isMark hc]
    cases rest with
    | nil => rfl
    | cons d rest => simp [Lexeme.operator, hpair d rfl]
  have hstart : StartsToken c rest := by
    simp only [isMark, Bool.and_eq_true, Bool.not_eq_true'] at hc
    refine ⟨hc.2, ?_⟩
    rintro ⟨rfl, hnext⟩
    exact hslash.elim (fun h => h rfl) fun h => h hnext
  exact token hstart hread (by simp [Lexeme.plain]) h

/-- An operator of two characters. -/
theorem pair {c d : Char} {kind : TokenKind} (hc : isMark c = true)
    (hpair : Lexeme.pair? c d = some kind) (h : ReadsAs rest shapes) :
    ReadsAs (c :: d :: rest) (⟨kind, String.ofList [c, d]⟩ :: shapes) := by
  have hread : Lexeme.read? c (d :: rest) = some (.plain kind [c, d] rest) := by
    simp [read?_of_isMark hc, Lexeme.operator, hpair]
  have hstart : StartsToken c (d :: rest) := by
    simp only [isMark, Bool.and_eq_true, Bool.not_eq_true'] at hc
    refine ⟨hc.2, ?_⟩
    rintro ⟨rfl, hnext⟩
    simp only [List.head?_cons, Option.some.injEq] at hnext
    subst hnext
    cases hpair
  exact token hstart hread (by simp [Lexeme.plain]) h

end ReadsAs

end Scripting
