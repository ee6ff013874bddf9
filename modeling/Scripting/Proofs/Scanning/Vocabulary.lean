import Mathlib.Computability.Language
import Mathlib.Data.List.TakeWhile
import Scripting.Proofs.Sequence.Joining

/-!
The vocabulary: the texts of every kind of token, as regular languages, and the rule by which a token
is taken off a text.

The rule is the longest match: of all front parts of a text that are texts of a token, the longest one
is taken, and a character that starts none of them is an invalid token, unless it is a quote. Main
statement: `Lexeme.read?` follows the rule (`Lexeme.read?_eq_some_iff`), and finds no token exactly at
a quote that does not occur again (`Lexeme.read?_eq_none_iff`).
-/

namespace Scripting

variable {text : List Char} {kind : TokenKind}

open scoped Computability

namespace Vocabulary

/-- The texts of one character of a class. -/
def oneOf (p : Char → Prop) : Language Char :=
  {text | ∃ c, p c ∧ text = [c]}

def IsDigit (c : Char) : Prop :=
  '0' ≤ c ∧ c ≤ '9'

def IsHexDigit (c : Char) : Prop :=
  IsDigit c ∨ ('a' ≤ c ∧ c ≤ 'f') ∨ ('A' ≤ c ∧ c ≤ 'F')

def IsLetter (c : Char) : Prop :=
  ('a' ≤ c ∧ c ≤ 'z') ∨ ('A' ≤ c ∧ c ≤ 'Z') ∨ c = '_'

def IsQuote (c : Char) : Prop :=
  c = '"' ∨ c = '\''

def word : Language Char :=
  oneOf IsLetter * (oneOf fun c => IsLetter c ∨ IsDigit c)∗

def reserved : Language Char :=
  {text | ∃ k : Keyword, text = k.text.toList}

def decimal : Language Char :=
  oneOf IsDigit * (oneOf IsDigit)∗

def hexadecimal : Language Char :=
  oneOf (· = '0') * (oneOf (fun c => c = 'x' ∨ c = 'X') * (oneOf IsHexDigit)∗)

/-- The string literals between two of the same quote. There are no escapes. -/
def quoted (quote : Char) : Language Char :=
  oneOf (· = quote) * ((oneOf (· ≠ quote))∗ * oneOf (· = quote))

/-- The operators of one and two characters. -/
def operators : List (List Char × TokenKind) :=
  [(['('], .leftParen), ([')'], .rightParen), (['{'], .leftBrace), (['}'], .rightBrace),
    (['['], .leftBracket), ([']'], .rightBracket), ([','], .comma), (['.'], .dot), ([':'], .colon),
    ([';'], .semicolon), (['='], .assign), (['+', '='], .plusAssign), (['-', '='], .minusAssign),
    (['*', '='], .starAssign), (['/', '='], .slashAssign), (['%', '='], .percentAssign),
    (['+'], .plus), (['-'], .minus), (['*'], .star), (['/'], .slash), (['%'], .percent),
    (['+', '+'], .plusPlus), (['-', '-'], .minusMinus), (['!'], .bang), (['~'], .tilde),
    (['!', '='], .bangEqual), (['=', '='], .equalEqual), (['<'], .less), (['<', '='], .lessEqual),
    (['>'], .greater), (['>', '='], .greaterEqual), (['&', '&'], .andAnd), (['|', '|'], .orOr)]

/-! Which texts are in the languages. -/

theorem mem_oneOf_mul {p : Char → Prop} {l : Language Char} :
    text ∈ oneOf p * l ↔ ∃ c rest, text = c :: rest ∧ p c ∧ rest ∈ l := by
  rw [Language.mem_mul]
  constructor
  · rintro ⟨_, ⟨c, hc, rfl⟩, rest, hrest, rfl⟩
    exact ⟨c, rest, rfl, hc, hrest⟩
  · rintro ⟨c, rest, rfl, hc, hrest⟩
    exact ⟨[c], ⟨c, hc, rfl⟩, rest, hrest, rfl⟩

theorem mem_oneOf_kstar {p : Char → Prop} : text ∈ (oneOf p)∗ ↔ ∀ c ∈ text, p c := by
  constructor
  · rintro ⟨pieces, rfl, hpieces⟩ c hc
    obtain ⟨piece, hpiece, hc⟩ := List.mem_flatten.1 hc
    obtain ⟨d, hd, rfl⟩ := hpieces piece hpiece
    rw [List.mem_singleton.1 hc]
    exact hd
  · intro h
    have hpieces : text = (text.map fun c => [c]).flatten := by
      rw [← List.flatMap_def, List.flatMap_singleton']
    rw [hpieces]
    apply Language.join_mem_kstar
    intro piece hpiece
    obtain ⟨c, hc, rfl⟩ := List.mem_map.1 hpiece
    exact ⟨c, h c hc, rfl⟩

theorem isLetter_iff {c : Char} : IsLetter c ↔ Lexeme.isWordStart c = true := by
  simp [IsLetter, Lexeme.isWordStart, or_assoc]

theorem isDigit_iff {c : Char} : IsDigit c ↔ Text.isDigitOf 10 c = true := by
  simp only [IsDigit, Char.le_def, UInt32.le_iff_toNat_le, Text.isDigitOf_iff_bounds]
  exact Iff.rfl

theorem isHexDigit_iff {c : Char} : IsHexDigit c ↔ Text.isDigitOf 16 c = true := by
  simp only [IsHexDigit, IsDigit, Text.isDigitOf, Text.digitValue?, Char.le_def,
    UInt32.le_iff_toNat_le, Char.toNat, Bool.and_eq_true, decide_eq_true_eq]
  grind

theorem mem_word : text ∈ word ↔ Lexeme.isWord text = true := by
  have hpart : ∀ c, Lexeme.isWordStart c = true ∨ IsDigit c ↔ Lexeme.isWordPart c = true := by
    intro c
    simp [IsDigit, Lexeme.isWordPart]
  simp only [word, mem_oneOf_mul, mem_oneOf_kstar, isLetter_iff, hpart]
  cases text with
  | nil => simp [Lexeme.isWord]
  | cons c rest => simp [Lexeme.isWord]

theorem mem_decimal : text ∈ decimal ↔
    ∃ c run, text = c :: run ∧ Text.isDigitOf 10 c = true ∧
      ∀ d ∈ run, Text.isDigitOf 10 d = true := by
  simp only [decimal, mem_oneOf_mul, mem_oneOf_kstar, isDigit_iff]

theorem mem_hexadecimal : text ∈ hexadecimal ↔
    ∃ x run, text = '0' :: x :: run ∧ (x = 'x' ∨ x = 'X') ∧
      ∀ d ∈ run, Text.isDigitOf 16 d = true := by
  simp only [hexadecimal, mem_oneOf_mul, mem_oneOf_kstar, isHexDigit_iff]
  constructor
  · rintro ⟨_, _, rfl, rfl, x, run, rfl, hx, hrun⟩
    exact ⟨x, run, rfl, hx, hrun⟩
  · rintro ⟨x, run, rfl, hx, hrun⟩
    exact ⟨'0', x :: run, rfl, rfl, x, run, rfl, hx, hrun⟩

theorem mem_quoted {quote : Char} : text ∈ quoted quote ↔
    ∃ body, quote ∉ body ∧ text = quote :: body ++ [quote] := by
  have hbody : ∀ body : List Char, (∀ c ∈ body, c ≠ quote) ↔ quote ∉ body := by
    intro body
    constructor
    · intro h hquote
      exact h quote hquote rfl
    · rintro h c hc rfl
      exact h hc
  simp only [quoted, Language.mem_mul, mem_oneOf_kstar, hbody]
  constructor
  · rintro ⟨_, ⟨_, rfl, rfl⟩, _, ⟨body, hmem, _, ⟨_, rfl, rfl⟩, rfl⟩, rfl⟩
    exact ⟨body, hmem, rfl⟩
  · rintro ⟨body, hmem, rfl⟩
    exact ⟨[quote], ⟨quote, rfl, rfl⟩, _, ⟨body, hmem, [quote], ⟨quote, rfl, rfl⟩, rfl⟩, rfl⟩

end Vocabulary

open Vocabulary

/-- The texts of the tokens of a kind. The keywords are the reserved words; no text is that of an
invalid token or of the end of a source. -/
def TokenKind.spellings : TokenKind → Language Char
  | .identifier => word - reserved
  | .number => decimal + hexadecimal
  | .string => quoted '"' + quoted '\''
  | .keyword k => {k.text.toList}
  | kind => {text | (text, kind) ∈ operators}

theorem Keyword.ofText?_eq_some_iff {k : Keyword} {text : String} :
    Keyword.ofText? text = some k ↔ text = k.text := by
  constructor
  · intro h
    have hfound : k.text = text := by simpa using List.find?_some h
    exact hfound.symm
  · rintro rfl
    cases k <;> rfl

/-- Every operator is read as one, and stands for no other kind of token. -/
theorem Vocabulary.operators_cases : ∀ entry ∈ operators,
    (entry.2 ≠ .invalid ∧ entry.2 ≠ .string) ∧
      ((∃ c, entry.1 = [c] ∧ ReadsAs.isMark c = true ∧ Lexeme.single c = entry.2) ∨
        ∃ c d, entry.1 = [c, d] ∧ ReadsAs.isMark c = true ∧
          Lexeme.pair? c d = some entry.2) := by
  simp only [operators, List.forall_mem_cons]
  and_intros <;> first
    | exact .inl ⟨_, rfl, rfl, rfl⟩
    | exact .inr ⟨_, _, rfl, rfl, rfl⟩
    | simp

theorem TokenKind.mem_spellings_of_mem_operators (h : (text, kind) ∈ operators) :
    text ∈ kind.spellings := by
  cases kind with
  | identifier | number | string | keyword => simp [operators] at h
  | _ => exact h

/-- The token that the longest match takes off a text. -/
inductive Longest (text : List Char) (piece : Lexeme) : Prop where
  | taken (text_eq : text = piece.written ++ piece.rest)
      (spelled : piece.written ∈ piece.kind.spellings)
      (longest : ∀ (kind : TokenKind) (other : List Char), other ∈ kind.spellings →
        other <+: text → other.length ≤ piece.written.length)
      (lexeme : piece.lexeme =
        if piece.kind = .string then piece.written.tail.dropLast else piece.written)
  | invalid {c : Char} {rest : List Char} (text_eq : text = c :: rest)
      (piece_eq : piece = .plain .invalid [c] rest) (quote : ¬IsQuote c)
      (unknown : ∀ (kind : TokenKind) (other : List Char), other ∈ kind.spellings →
        ¬other <+: text)

namespace Lexeme

open TokenKind

/-! What is read is a text of its kind. -/

section

variable {c : Char} {behind : List Char} {piece : Lexeme}

/-- The four ways to read a token, by its first character. -/
theorem read?_cases (h : read? c behind = some piece) :
    (isWordStart c = true ∧ piece = word c behind) ∨
    (Text.isDigitOf 10 c = true ∧ piece = number c behind) ∨
    (IsQuote c ∧ quoted? c behind = some piece) ∨
    (¬IsQuote c ∧ piece = operator c behind) := by
  unfold read? at h
  split at h
  · rename_i hword
    exact .inl ⟨hword, (Option.some.inj h).symm⟩
  split at h
  · rename_i hdigit
    exact .inr (.inl ⟨hdigit, (Option.some.inj h).symm⟩)
  split at h
  · rename_i hquote
    exact .inr (.inr (.inl ⟨by simpa [IsQuote] using hquote, h⟩))
  · rename_i hquote
    exact .inr (.inr (.inr ⟨by simpa [IsQuote] using hquote, (Option.some.inj h).symm⟩))

theorem read?_of_isWordStart (h : isWordStart c = true) :
    read? c behind = some (word c behind) := by
  simp [read?, h]

theorem read?_of_isQuote (h : IsQuote c) : read? c behind = quoted? c behind := by
  rcases h with rfl | rfl <;> rfl

theorem written_word_mem (h : isWordStart c = true) :
    (word c behind).written ∈ (word c behind).kind.spellings := by
  have hword : c :: behind.takeWhile isWordPart ∈ Vocabulary.word := by
    simp only [mem_word, isWord, h, List.all_takeWhile, Bool.and_self]
  simp only [word, plain]
  split
  · rename_i k hk
    have htext := Keyword.ofText?_eq_some_iff.1 hk
    show _ = k.text.toList
    rw [← htext, String.toList_ofList]
  · rename_i hk
    refine ⟨hword, ?_⟩
    rintro ⟨k, htext⟩
    rw [htext, String.ofList_toList, Keyword.ofText?_eq_some_iff.2 rfl] at hk
    cases hk

theorem written_digits_append (base : Nat) (taken text : List Char) :
    (digits base taken text).written ++ (digits base taken text).rest = taken ++ text := by
  simp only [digits, plain, List.append_assoc, List.takeWhile_append_dropWhile]

/-- A hexadecimal number has an `x` behind its `0`. -/
theorem number_cases (c : Char) (text : List Char) :
    (∃ x rest, (x = 'x' ∨ x = 'X') ∧ c = '0' ∧ text = x :: rest ∧
      number c text = digits 16 ['0', x] rest) ∨
    (¬(c = '0' ∧ (text.head? = some 'x' ∨ text.head? = some 'X')) ∧
      number c text = digits 10 [c] text) := by
  by_cases h : c = '0' ∧ (text.head? = some 'x' ∨ text.head? = some 'X')
  · obtain ⟨rfl, h⟩ := h
    cases text with
    | nil => simp at h
    | cons x rest =>
      simp only [List.head?_cons, Option.some.injEq] at h
      rcases h with rfl | rfl
      · exact .inl ⟨'x', rest, .inl rfl, rfl, rfl, rfl⟩
      · exact .inl ⟨'X', rest, .inr rfl, rfl, rfl, rfl⟩
  · exact .inr ⟨h, number_eq_digits h⟩

theorem written_number_mem (h : Text.isDigitOf 10 c = true) :
    (number c behind).written ∈ decimal + hexadecimal := by
  obtain ⟨x, rest, hx, rfl, rfl, heq⟩ | ⟨-, heq⟩ := number_cases c behind
  · rw [heq]
    refine Or.inr (mem_hexadecimal.2 ⟨x, _, rfl, hx, ?_⟩)
    exact List.all_eq_true.1 List.all_takeWhile
  · rw [heq]
    refine Or.inl (mem_decimal.2 ⟨c, _, rfl, h, ?_⟩)
    exact List.all_eq_true.1 List.all_takeWhile

theorem quoted?_append {quote : Char} {body : List Char} (h : quote ∉ body) (rest : List Char) :
    quoted? quote (body ++ quote :: rest) =
      some ⟨.string, quote :: body ++ [quote], body, rest⟩ := by
  have hrun : ∀ d ∈ body, decide (d ≠ quote) = true := by
    intro d hd
    simp only [ne_eq, decide_eq_true_eq]
    rintro rfl
    exact h hd
  have hstop : ∀ d ∈ (quote :: rest).head?, decide (d ≠ quote) = false := by simp
  rw [quoted?, takeWhile_append_eq hrun hstop, dropWhile_append_eq hrun hstop]

/-- A quote opens a string literal, if it occurs again. -/
theorem quoted?_cases (quote : Char) (text : List Char) :
    (quote ∉ text ∧ quoted? quote text = none) ∨
    (∃ body rest, quote ∉ body ∧ text = body ++ quote :: rest ∧
      quoted? quote text = some ⟨.string, quote :: body ++ [quote], body, rest⟩) := by
  by_cases h : quote ∈ text
  · obtain ⟨body, rest, rfl, hbody⟩ := List.eq_append_cons_of_mem h
    exact .inr ⟨body, rest, hbody, rfl, quoted?_append hbody rest⟩
  · refine .inl ⟨h, ?_⟩
    have hdrop : text.dropWhile (· ≠ quote) = [] := by
      apply List.dropWhile_eq_nil_iff.2
      intro d hd
      simp only [ne_eq, decide_eq_true_eq]
      rintro rfl
      exact h hd
    rw [quoted?, hdrop]

theorem single_mem (h : single c ≠ .invalid) : ([c], single c) ∈ operators := by
  revert h
  unfold single
  split <;> simp [operators]

theorem pair?_mem {d : Char} (h : pair? c d = some kind) : ([c, d], kind) ∈ operators := by
  revert h
  unfold pair?
  split <;> rintro ⟨⟩ <;> simp [operators]

theorem operator_cases (c : Char) (text : List Char) :
    (∃ d rest kind, text = d :: rest ∧ pair? c d = some kind ∧
      operator c text = plain kind [c, d] rest) ∨
    operator c text = plain (single c) [c] text := by
  cases text with
  | nil => exact .inr rfl
  | cons d rest =>
    cases hpair : pair? c d with
    | none => exact .inr (by simp only [operator, hpair])
    | some kind => exact .inl ⟨d, rest, kind, rfl, hpair, by simp only [operator, hpair]⟩

theorem read?_sound (h : read? c behind = some piece) :
    c :: behind = piece.written ++ piece.rest ∧
      ((piece.written ∈ piece.kind.spellings ∧ piece.lexeme =
          if piece.kind = .string then piece.written.tail.dropLast else piece.written) ∨
        (¬IsQuote c ∧ piece = plain .invalid [c] behind)) := by
  obtain ⟨hword, rfl⟩ | ⟨hdigit, rfl⟩ | ⟨hquote, hread⟩ | ⟨hquote, rfl⟩ := read?_cases h
  · refine ⟨?_, .inl ⟨written_word_mem hword, ?_⟩⟩
    · simp only [word, plain, List.cons_append, List.takeWhile_append_dropWhile]
    · rw [if_neg]
      · rfl
      · simp only [word, plain]
        split <;> simp
  · have hmem : (number c behind).written ∈ decimal + hexadecimal := written_number_mem hdigit
    obtain ⟨x, rest, hx, rfl, rfl, heq⟩ | ⟨-, heq⟩ := number_cases c behind
    · rw [heq] at hmem ⊢
      exact ⟨(written_digits_append 16 ['0', x] rest).symm, .inl ⟨hmem, rfl⟩⟩
    · rw [heq] at hmem ⊢
      exact ⟨(written_digits_append 10 [c] behind).symm, .inl ⟨hmem, rfl⟩⟩
  · obtain ⟨-, hnone⟩ | ⟨body, rest, hbody, rfl, hsome⟩ := quoted?_cases c behind
    · rw [hnone] at hread
      cases hread
    · rw [hsome] at hread
      cases hread
      refine ⟨by simp, .inl ⟨?_, by simp⟩⟩
      rcases hquote with rfl | rfl
      · exact Or.inl (mem_quoted.2 ⟨body, hbody, rfl⟩)
      · exact Or.inr (mem_quoted.2 ⟨body, hbody, rfl⟩)
  · obtain ⟨d, rest, kind, rfl, hpair, heq⟩ | heq := operator_cases c behind
    · rw [heq]
      have hmem := pair?_mem hpair
      refine ⟨rfl, .inl ⟨mem_spellings_of_mem_operators hmem, ?_⟩⟩
      rw [if_neg]
      · rfl
      · exact (operators_cases _ hmem).1.2
    · rw [heq]
      refine ⟨rfl, ?_⟩
      by_cases hkind : single c = .invalid
      · exact .inr ⟨hquote, by rw [hkind]⟩
      · have hmem := single_mem hkind
        refine .inl ⟨mem_spellings_of_mem_operators hmem, ?_⟩
        rw [if_neg]
        · rfl
        · exact (operators_cases _ hmem).1.2

/-! No longer front part is the text of a token. -/

/-- `piece` covers a text of a kind that stands at the front, and is of this kind if nothing follows. -/
structure Covers (piece : Lexeme) (other tail : List Char) (kind : TokenKind) : Prop where
  valid : piece.kind ≠ .invalid
  length : other.length ≤ piece.written.length
  same : tail = [] → piece.kind = kind

theorem le_length_takeWhile {p : Char → Bool} {run : List Char} (hrun : ∀ d ∈ run, p d = true)
    (tail : List Char) : run.length ≤ ((run ++ tail).takeWhile p).length := by
  rw [List.takeWhile_append_of_pos hrun, List.length_append]
  omega

theorem covers_word {other tail : List Char} (hword : isWord other = true)
    (hkind : (Shape.word (String.ofList other)).kind = kind)
    (hfront : other ++ tail = c :: behind) :
    isWordStart c = true ∧ (word c behind).Covers other tail kind := by
  cases other with
  | nil => cases hword
  | cons d run =>
    obtain ⟨rfl, rfl⟩ : d = c ∧ run ++ tail = behind := by simpa using hfront
    simp only [isWord, Bool.and_eq_true, List.all_eq_true] at hword
    refine ⟨hword.1, ?_, ?_, ?_⟩
    · simp only [word, plain]
      split <;> simp
    · have := le_length_takeWhile hword.2 tail
      simp only [word, plain, List.length_cons]
      omega
    · rintro rfl
      have hrun : run.takeWhile isWordPart = run := List.takeWhile_eq_self_iff.2 hword.2
      rw [← hkind, List.append_nil]
      simp only [word, hrun]
      rfl

theorem covers_number {other tail : List Char} (h : other ∈ decimal + hexadecimal)
    (hfront : other ++ tail = c :: behind) :
    Text.isDigitOf 10 c = true ∧ (number c behind).Covers other tail .number := by
  have hnumber : (number c behind).kind = .number := by
    unfold number
    split <;> rfl
  rcases h with h | h
  · obtain ⟨d, run, rfl, hd, hrun⟩ := mem_decimal.1 h
    obtain ⟨rfl, rfl⟩ : d = c ∧ run ++ tail = behind := by simpa using hfront
    refine ⟨hd, by simp [hnumber], ?_, fun _ => hnumber⟩
    obtain ⟨x, rest, hx, rfl, htext, heq⟩ | ⟨-, heq⟩ := number_cases d (run ++ tail)
    · -- an `x` is no decimal digit
      have hrun : run = [] := by
        cases run with
        | nil => rfl
        | cons y run =>
          obtain rfl : y = x := by simpa using (List.cons.inj htext).1
          have := hrun y (by simp)
          rcases hx with rfl | rfl <;> exact absurd this (by decide)
      rw [heq, hrun]
      simp [digits, plain]
    · have := le_length_takeWhile hrun tail
      rw [heq]
      simp only [digits, plain, List.length_append, List.length_cons, List.length_nil]
      omega
  · obtain ⟨x, run, rfl, hx, hrun⟩ := mem_hexadecimal.1 h
    obtain ⟨rfl, rfl⟩ : '0' = c ∧ x :: (run ++ tail) = behind := by simpa using hfront
    refine ⟨by decide, by simp [hnumber], ?_, fun _ => hnumber⟩
    have hdigits : number '0' (x :: (run ++ tail)) = digits 16 ['0', x] (run ++ tail) := by
      rcases hx with rfl | rfl <;> rfl
    have := le_length_takeWhile hrun tail
    rw [hdigits]
    simp only [digits, plain, List.length_append, List.length_cons, List.length_nil]
    omega

theorem covers_operator {other tail : List Char} (h : (other, kind) ∈ operators)
    (hfront : other ++ tail = c :: behind) :
    ReadsAs.isMark c = true ∧ (operator c behind).Covers other tail kind := by
  obtain ⟨⟨hvalid, -⟩, ⟨d, rfl, hmark, rfl⟩ | ⟨d, e, rfl, hmark, hpair⟩⟩ := operators_cases _ h
  · obtain ⟨rfl, rfl⟩ : d = c ∧ tail = behind := by simpa using hfront
    refine ⟨hmark, ?_⟩
    obtain ⟨e, rest, kind, rfl, hpair, heq⟩ | heq := operator_cases d tail
    · rw [heq]
      exact ⟨(operators_cases _ (pair?_mem hpair)).1.1, by simp [plain], by simp⟩
    · rw [heq]
      exact ⟨hvalid, by simp [plain], fun _ => rfl⟩
  · obtain ⟨rfl, rfl⟩ : d = c ∧ e :: tail = behind := by simpa using hfront
    refine ⟨hmark, ?_⟩
    have heq : operator d (e :: tail) = plain kind [d, e] tail := by simp only [operator, hpair]
    rw [heq]
    exact ⟨hvalid, by simp [plain], fun _ => rfl⟩

/-- Where the text of a token stands at the front, a token at least as long is read. -/
theorem read?_covers {other tail : List Char} (h : other ∈ kind.spellings)
    (hfront : other ++ tail = c :: behind) :
    ∃ piece, read? c behind = some piece ∧ piece.Covers other tail kind := by
  have operator : (other, kind) ∈ operators →
      ∃ piece, read? c behind = some piece ∧ piece.Covers other tail kind := by
    intro h
    obtain ⟨hmark, hcovers⟩ := covers_operator h hfront
    exact ⟨_, ReadsAs.read?_of_isMark hmark behind, hcovers⟩
  cases kind with
  | identifier =>
    obtain ⟨hword, hreserved⟩ := h
    have hkind : (Shape.word (String.ofList other)).kind = .identifier := by
      cases hk : Keyword.ofText? (String.ofList other) with
      | none => simp only [Shape.word, hk]
      | some k =>
        refine absurd ⟨k, ?_⟩ hreserved
        rw [← Keyword.ofText?_eq_some_iff.1 hk, String.toList_ofList]
    obtain ⟨hstart, hcovers⟩ := covers_word (mem_word.1 hword) hkind hfront
    exact ⟨_, read?_of_isWordStart hstart, hcovers⟩
  | keyword k =>
    obtain rfl : other = k.text.toList := h
    have hkind : (Shape.word (String.ofList k.text.toList)).kind = .keyword k := by
      rw [String.ofList_toList]
      simp only [Shape.word, Keyword.ofText?_eq_some_iff.2 rfl]
    obtain ⟨hstart, hcovers⟩ := covers_word k.isWord_text hkind hfront
    exact ⟨_, read?_of_isWordStart hstart, hcovers⟩
  | number =>
    obtain ⟨hdigit, hcovers⟩ := covers_number h hfront
    exact ⟨_, read?_of_isDigit hdigit, hcovers⟩
  | string =>
    obtain ⟨quote, hquote, body, hbody, rfl⟩ :
        ∃ quote, IsQuote quote ∧ ∃ body, quote ∉ body ∧ other = quote :: body ++ [quote] := by
      rcases h with h | h
      · exact ⟨'"', .inl rfl, mem_quoted.1 h⟩
      · exact ⟨'\'', .inr rfl, mem_quoted.1 h⟩
    obtain ⟨rfl, rfl⟩ : quote = c ∧ body ++ quote :: tail = behind := by simpa using hfront
    refine ⟨_, (read?_of_isQuote hquote).trans (quoted?_append hbody tail), ?_⟩
    exact ⟨by simp, by simp, fun _ => rfl⟩
  | _ => exact operator h

/-! The rule of the longest match and what is read. -/

theorem longest_of_read? (h : read? c behind = some piece) : Longest (c :: behind) piece := by
  obtain ⟨htext, ⟨hmem, hlexeme⟩ | ⟨hquote, rfl⟩⟩ := read?_sound h
  · refine .taken htext hmem ?_ hlexeme
    rintro kind other hother ⟨tail, hfront⟩
    obtain ⟨piece', hpiece, hcovers⟩ := read?_covers hother hfront
    obtain rfl : piece' = piece := Option.some.inj (hpiece.symm.trans h)
    exact hcovers.length
  · refine .invalid rfl rfl hquote ?_
    rintro kind other hother ⟨tail, hfront⟩
    obtain ⟨piece', hpiece, hcovers⟩ := read?_covers hother hfront
    obtain rfl := Option.some.inj (hpiece.symm.trans h)
    exact hcovers.valid rfl

theorem read?_eq_none_iff : read? c behind = none ↔ IsQuote c ∧ c ∉ behind := by
  by_cases hquote : IsQuote c
  · rw [read?_of_isQuote hquote]
    obtain ⟨hmem, hnone⟩ | ⟨body, rest, -, rfl, hsome⟩ := quoted?_cases c behind
    · simp [hnone, hquote, hmem]
    · simp [hsome]
  · have hnot : ¬(c = '"' || c = '\'') = true := by simpa [IsQuote] using hquote
    unfold read?
    rw [if_neg hnot]
    simp only [hquote, false_and, iff_false]
    split
    · simp
    · split <;> simp

/-- The text of a token has a character: in front of an open quote no token is read. -/
theorem ne_nil_of_mem_spellings (h : text ∈ kind.spellings) : text ≠ [] := by
  rintro rfl
  have hfront : [] ++ ['"'] = '"' :: [] := rfl
  obtain ⟨piece, hpiece, -⟩ := read?_covers h hfront
  cases hpiece

/-- A text is that of one kind of token only. -/
theorem kind_unique {kind kind' : TokenKind} (h : text ∈ kind.spellings)
    (h' : text ∈ kind'.spellings) : kind = kind' := by
  cases text with
  | nil => exact absurd rfl (ne_nil_of_mem_spellings h)
  | cons c rest =>
    obtain ⟨piece, hpiece, hcovers⟩ := read?_covers h (List.append_nil _)
    obtain ⟨piece', hpiece', hcovers'⟩ := read?_covers h' (List.append_nil _)
    obtain rfl := Option.some.inj (hpiece.symm.trans hpiece')
    rw [← hcovers.same rfl, hcovers'.same rfl]

end

end Lexeme

theorem Longest.unique {piece piece' : Lexeme} (h : Longest text piece) (h' : Longest text piece') :
    piece = piece' := by
  cases h with
  | taken text_eq spelled longest lexeme =>
    cases h' with
    | taken text_eq' spelled' longest' lexeme' =>
      have hle := longest' _ _ spelled ⟨_, text_eq.symm⟩
      have hge := longest _ _ spelled' ⟨_, text_eq'.symm⟩
      obtain ⟨hwritten, hrest⟩ :=
        List.append_inj (text_eq.symm.trans text_eq') (Nat.le_antisymm hle hge)
      rw [hwritten] at spelled
      have hkind := Lexeme.kind_unique spelled spelled'
      rw [hkind, hwritten, ← lexeme'] at lexeme
      cases piece
      cases piece'
      simp_all
    | invalid _ _ _ unknown => exact absurd ⟨_, text_eq.symm⟩ (unknown _ _ spelled)
  | invalid text_eq piece_eq _ unknown =>
    cases h' with
    | taken text_eq' spelled' => exact absurd ⟨_, text_eq'.symm⟩ (unknown _ _ spelled')
    | invalid text_eq' piece_eq' =>
      obtain ⟨rfl, rfl⟩ := List.cons.inj (text_eq.symm.trans text_eq')
      rw [piece_eq, piece_eq']

/-- The token that is read is the longest match. -/
theorem Lexeme.read?_eq_some_iff {c : Char} {behind : List Char} {piece : Lexeme} :
    Lexeme.read? c behind = some piece ↔ Longest (c :: behind) piece := by
  constructor
  · exact longest_of_read?
  · intro h
    cases hread : Lexeme.read? c behind with
    | some piece' => rw [(longest_of_read? hread).unique h]
    | none =>
      obtain ⟨hquote, -⟩ := read?_eq_none_iff.1 hread
      cases h with
      | taken text_eq spelled =>
        obtain ⟨piece', hpiece, -⟩ := read?_covers spelled text_eq.symm
        rw [hread] at hpiece
        cases hpiece
      | invalid text_eq _ quote =>
        obtain ⟨rfl, -⟩ := List.cons.inj text_eq
        exact absurd hquote quote

end Scripting
