import Scripting.Proofs.Numerals
import Scripting.Proofs.Precedence
import Scripting.Proofs.Scanning

/-!
Integer literals.

A literal is one token, however many digits it has. It is read as the very number that its digits denote,
or refused if there are no digits or the number is not one of 64 bits; no number is ever reduced. Main
statement: `literals_exact`.
-/

namespace Scripting

open Vocabulary

/-- A literal with its base and its digits: decimal digits, or hexadecimal ones, also none, behind `0x`
or `0X`. -/
inductive IsLiteral : List Char → Nat → List Char → Prop where
  | decimal {digits : List Char} (hne : digits ≠ []) (hdigits : ∀ c ∈ digits, IsDigit c) :
      IsLiteral digits 10 digits
  | hexadecimal {x : Char} {digits : List Char} (hx : x = 'x' ∨ x = 'X')
      (hdigits : ∀ c ∈ digits, IsHexDigit c) : IsLiteral ('0' :: x :: digits) 16 digits

/-! The value of a literal. -/

theorem not_isDigit_of_mark {x : Char} (h : x = 'x' ∨ x = 'X') : ¬IsDigit x := by
  rw [isDigit_iff]
  rcases h with rfl | rfl <;> decide

namespace IsLiteral

variable {text digits : List Char} {base : Nat} (h : IsLiteral text base digits)
include h

theorem isDigitOf {c : Char} (hc : c ∈ digits) : Text.isDigitOf base c = true := by
  cases h with
  | decimal _ hdigits => exact isDigit_iff.1 (hdigits c hc)
  | hexadecimal _ hdigits => exact isHexDigit_iff.1 (hdigits c hc)

theorem readLiteral?_eq :
    Text.readLiteral? text = (Text.readDigits? base digits).bind fun n => Text.int64? n := by
  cases h with
  | decimal _ hdigits =>
    unfold Text.readLiteral?
    split
    · exact absurd (hdigits 'x' (by simp)) (not_isDigit_of_mark (.inl rfl))
    · exact absurd (hdigits 'X' (by simp)) (not_isDigit_of_mark (.inr rfl))
    · rfl
  | hexadecimal hx _ => rcases hx with rfl | rfl <;> rfl

/-- A literal has a value exactly if it has digits and their number is one of 64 bits. -/
theorem readLiteral?_eq_some_iff {v : Int64} :
    Text.readLiteral? text = some v ↔ digits ≠ [] ∧ v.toInt = Text.numberOf base digits := by
  rw [h.readLiteral?_eq, Option.bind_eq_some_iff]
  simp only [Text.readDigits?_eq_some_iff, Text.int64?_eq_some_iff]
  constructor
  · rintro ⟨n, ⟨hne, -, rfl⟩, hv⟩
    exact ⟨hne, hv⟩
  · rintro ⟨hne, hv⟩
    exact ⟨_, ⟨hne, fun c hc => h.isDigitOf hc, rfl⟩, hv⟩

/-- The value of a literal in range. -/
theorem exists_value (hne : digits ≠ []) (hrange : Text.numberOf base digits ≤ 2 ^ 63 - 1) :
    ∃ v : Int64, Text.readLiteral? text = some v ∧ v.toInt = Text.numberOf base digits := by
  obtain ⟨v, hv⟩ := (Text.exists_toInt_eq_iff (z := Text.numberOf base digits)).2 (by omega)
  exact ⟨v, h.readLiteral?_eq_some_iff.2 ⟨hne, hv⟩, hv⟩

theorem readLiteral?_eq_none (hnot : ¬(digits ≠ [] ∧ Text.numberOf base digits ≤ 2 ^ 63 - 1)) :
    Text.readLiteral? text = none := by
  cases hread : Text.readLiteral? text with
  | none => rfl
  | some v =>
    obtain ⟨hne, hv⟩ := h.readLiteral?_eq_some_iff.1 hread
    have hlt := v.toInt_lt
    exact absurd ⟨hne, by omega⟩ hnot

end IsLiteral

/-! The token of a literal. -/

/-- A literal is read as one token. -/
theorem IsLiteral.read? {text digits rest : List Char} {base : Nat} (h : IsLiteral text base digits)
    (hrest : Apart rest) : ∃ c behind, text = c :: behind ∧ Text.isDigitOf 10 c = true ∧
      Lexeme.read? c (behind ++ rest) = some (.plain .number text rest) := by
  have hrun := fun d (hd : d ∈ digits) => h.isDigitOf hd
  cases h with
  | decimal hne _ =>
    obtain ⟨c, run, rfl⟩ := List.exists_cons_of_ne_nil hne
    rw [List.forall_mem_cons] at hrun
    refine ⟨c, run, rfl, hrun.1, ?_⟩
    rw [Lexeme.read?_of_isDigit hrun.1, Lexeme.number_of_decimal hrun.2 hrest,
      Lexeme.digits_of_apart hrun.2 hrest]
    rfl
  | @hexadecimal x _ hx _ =>
    refine ⟨'0', x :: digits, rfl, by decide, ?_⟩
    have hnumber : Lexeme.number '0' (x :: digits ++ rest) =
        Lexeme.digits 16 ['0', x] (digits ++ rest) := by
      rcases hx with rfl | rfl <;> rfl
    rw [Lexeme.read?_of_isDigit (by decide), hnumber, Lexeme.digits_of_apart hrun hrest]
    rfl

/-- A literal in front of a text that reads. -/
theorem IsLiteral.readsAs {text digits rest : List Char} {base : Nat} {shapes : List Shape}
    (h : IsLiteral text base digits) (hrest : Apart rest) (hreads : ReadsAs rest shapes) :
    ReadsAs (text ++ rest) (⟨.number, String.ofList text⟩ :: shapes) := by
  obtain ⟨c, behind, rfl, hdigit, hread⟩ := h.read? hrest
  exact .token (startsToken_of_isDigitOf hdigit) hread (by simp [Lexeme.plain]) hreads

/-- A source that is a literal has one token. -/
theorem IsLiteral.tokenize {text digits : List Char} {base : Nat} (h : IsLiteral text base digits) :
    Scripting.tokenize (String.ofList text) =
      .ok [⟨.number, String.ofList text, ⟨{}, byteLength text⟩⟩, .eof (.after {} text)] := by
  obtain ⟨c, behind, rfl, hdigit, hread⟩ := h.read? (show Apart [] by simp [Apart])
  rw [List.append_nil] at hread
  have hplace : Location.after {} (c :: behind) = .behind (c :: behind) :=
    Location.after_behind [] (c :: behind)
  have hscan : tokensFrom ((c :: behind).length + 1) (.behind []) ([] ++ c :: behind) = _ :=
    tokensFrom_some .nil (startsToken_of_isDigitOf hdigit) hread
  rw [Scripting.tokenize, String.toList_ofList, hplace]
  refine hscan.trans ?_
  rw [List.length_cons, Lexeme.plain, tokensFrom_finalGap (.gap .nil)]
  simp [Except.map, Lexeme.token, Location.behind, lastLine, byteLength]

/-! The parser at a number. -/

namespace Parser

variable {g : Grammar} {c c' : Cursor} {e : Expr} {v : Int64}

/-- The failure at a number that is refused. -/
def invalidLiteral (span : Span) : Failure :=
  ⟨span, [⟨span, "Invalid integer literal"⟩]⟩

theorem integerValue_of_some {token : Token} (h : Text.readLiteral? token.lexeme.toList = some v) :
    integerValue token c = .ok v c := by
  rw [integerValue, h]
  rfl

theorem integerValue_of_none {token : Token} (h : Text.readLiteral? token.lexeme.toList = none) :
    integerValue token c = .fail (invalidLiteral token.span) c := by
  rw [integerValue, h]
  rfl

theorem unary_of_number (hkind : c.next.kind = .number)
    (h : Text.readLiteral? c.next.lexeme.toList = some v) (hstop : c.advance.next.kind.goesOn = false) :
    unary g c = .ok (.integer c.next.span v) c.advance := by
  have hprimary : primary g c = .ok (.integer c.next.span v) c.advance := by
    simp only [primary, bind, andThen, peek, hkind, integerValue_of_some h, advance, pure, result]
  simp only [unary, bind, andThen, peek, hkind, prefixOp?]
  rw [hprimary]
  exact withPostfixes_of_goesOn hstop

theorem unary_of_invalidLiteral (hkind : c.next.kind = .number)
    (h : Text.readLiteral? c.next.lexeme.toList = none) :
    unary g c = .fail (invalidLiteral c.next.span) c := by
  have hprimary : primary g c = .fail (invalidLiteral c.next.span) c := by
    simp only [primary, bind, andThen, peek, hkind, integerValue_of_none h]
  simp only [unary, bind, andThen, peek, hkind, prefixOp?]
  rw [hprimary]

/-- Levels of binary operators leave an operand alone that no operator of theirs follows. -/
theorem binaryLevels_of_ok {levels : List (TokenKind → Option BinaryOp)} {p : Parser Expr}
    (h : p c = .ok e c') (hstop : ∀ op? ∈ levels, op? c'.next.kind = none) :
    levels.foldl binaryLevel p c = .ok e c' := by
  induction levels generalizing p with
  | nil => exact h
  | cons op? levels ih =>
    rw [List.forall_mem_cons] at hstop
    refine ih ?_ hstop.2
    simp only [binaryLevel, bind, andThen, h, bounded]
    exact binaryRest_of_none hstop.1

theorem binaryLevels_of_fail {levels : List (TokenKind → Option BinaryOp)} {p : Parser Expr}
    {failure : Failure} (h : p c = .fail failure c') :
    levels.foldl binaryLevel p c = .fail failure c' := by
  induction levels generalizing p with
  | nil => exact h
  | cons op? levels ih =>
    refine ih ?_
    simp only [binaryLevel, bind, andThen, h]

/-- An operand at the end of a text is the whole expression. -/
theorem assignment_of_ok (h : unary g c = .ok e c') (hend : c'.next.kind = .eof) :
    assignment g c = .ok e c' := by
  have hlevels : binaryLevels.foldl binaryLevel (unary g) c = .ok e c' := by
    apply binaryLevels_of_ok h
    rw [hend]
    decide
  simp only [assignment, bind, andThen, hlevels, nextKind, hend, assignOp?, pure, result]

theorem assignment_of_fail {failure : Failure} (h : unary g c = .fail failure c') :
    assignment g c = .fail failure c' := by
  simp only [assignment, bind, andThen, binaryLevels_of_fail h]

theorem expressionAt_of_number (hkind : c.next.kind = .number)
    (h : Text.readLiteral? c.next.lexeme.toList = some v) (hend : c.advance.next.kind = .eof) :
    expressionAt c = (.integer c.next.span v, c.advance) := by
  have hstop : c.advance.next.kind.goesOn = false := by rw [hend]; rfl
  have hread : (Grammar.forCursor c).expression c = .ok (.integer c.next.span v) c.advance :=
    assignment_of_ok (unary_of_number hkind h hstop) hend
  rw [expressionAt, hread]

theorem expressionAt_of_invalidLiteral (hkind : c.next.kind = .number)
    (h : Text.readLiteral? c.next.lexeme.toList = none) :
    expressionAt c = (.error c.next.span (invalidLiteral c.next.span).errors, c) := by
  have hread : (Grammar.forCursor c).expression c = .fail (invalidLiteral c.next.span) c :=
    assignment_of_fail (unary_of_invalidLiteral hkind h)
  rw [expressionAt, hread]
  rfl

end Parser

/-! Labels with a sign. -/

/-- The tokens of a label `case -d:`, with `d` the text of a literal, in front of others. -/
def negativeLabel (text : List Char) (more : List Shape) : List Shape :=
  .keyword .caseLabel :: .minus :: ⟨.number, String.ofList text⟩ :: .colon :: more

theorem Parser.caseLabel_negative {c : Cursor} {text : List Char} {more : List Shape}
    (h : c.shapes = negativeLabel text more) :
    caseLabel c = match Text.readLiteral? text with
      | some v => .ok (some (.value (-v))) (c.drop 4)
      | none => .fail (invalidLiteral (c.drop 2).next.span) (c.drop 3) := by
  have hsign := Cursor.shapes_advance h (by simp [Shape.keyword]) (by simp)
  have hnumber := Cursor.shapes_advance hsign (by simp [Shape.minus]) (by simp)
  have hcolon := Cursor.shapes_advance hnumber (by simp) (by simp)
  have hlexeme : c.advance.advance.next.lexeme = String.ofList text :=
    congrArg Shape.lexeme (List.cons.inj hnumber).1
  simp only [caseLabel, bind, andThen, nextKind, advance, accept, expect, Cursor.drop,
    Cursor.kind_of_shapes h, Cursor.kind_of_shapes hsign, Cursor.kind_of_shapes hnumber,
    Shape.keyword, Shape.minus, if_true]
  cases hvalue : Text.readLiteral? text with
  | some v =>
    rw [← String.toList_ofList (l := text), ← hlexeme] at hvalue
    simp only [integerValue_of_some hvalue, Cursor.kind_of_shapes hcolon, Shape.colon, if_true, pure,
      result]
  | none =>
    rw [← String.toList_ofList (l := text), ← hlexeme] at hvalue
    simp only [integerValue_of_none hvalue]

/-- The source of a label. -/
theorem IsLiteral.tokenize_label {text digits : List Char} {base : Nat}
    (h : IsLiteral text base digits) : ∃ tokens,
      Scripting.tokenize (String.ofList ("case -".toList ++ text ++ [':'])) = .ok tokens ∧
      tokens.map Token.shape = negativeLabel text [.eof] := by
  have hcolon : ReadsAs [':'] [.colon, .eof] :=
    .single (by decide) (.inl (by decide)) (by simp) .nil
  have hnumber := h.readsAs (by simp [Apart]; decide) hcolon
  -- a digit behind the sign is not part of it
  have hpair : ∀ d ∈ (text ++ [':']).head?, Lexeme.pair? '-' d = none := by
    obtain ⟨c, behind, rfl, hdigit, -⟩ := h.read? (show Apart [] by simp [Apart])
    rintro d ⟨⟩
    unfold Lexeme.pair?
    split <;> first | rfl | exact absurd hdigit (by decide)
  have hsign := ReadsAs.single (c := '-') (by decide) (.inl (by decide)) hpair hnumber
  have hlabel := ReadsAs.keyword .caseLabel (by simp [Apart]; decide) hsign.blank
  rw [Scripting.tokenize, String.toList_ofList, List.append_assoc]
  exact hlabel _ {} (Nat.lt_succ_self _)

/-- Every literal is one token, which is read as the number that its digits denote, if there are digits
and their number is at most the largest one of 64 bits, and else refused with an error at the token; and
so is a literal behind the sign of a label, which then carries the negative number. -/
theorem literals_exact {text digits : List Char} {base : Nat} (h : IsLiteral text base digits) :
    let token : Token := ⟨.number, String.ofList text, ⟨{}, byteLength text⟩⟩
    let c := Cursor.ofTokens [token, .eof (.after {} text)]
    let inRange := digits ≠ [] ∧ Text.numberOf base digits ≤ 2 ^ 63 - 1
    tokenize (String.ofList text) = .ok [token, .eof (.after {} text)] ∧
    (∃ tokens, tokenize (String.ofList ("case -".toList ++ text ++ [':'])) = .ok tokens ∧
      tokens.map Token.shape = negativeLabel text [.eof]) ∧
    (inRange →
      (∃ v : Int64, v.toInt = Text.numberOf base digits ∧
        Parser.expressionAt c = (.integer token.span v, c.advance)) ∧
      ∀ (label : Cursor) (more : List Shape), label.shapes = negativeLabel text more →
        ∃ v : Int64, v.toInt = -Text.numberOf base digits ∧
          Parser.caseLabel label = .ok (some (.value v)) (label.drop 4)) ∧
    (¬inRange →
      Parser.expressionAt c = (.error token.span (Parser.invalidLiteral token.span).errors, c) ∧
      ∀ (label : Cursor) (more : List Shape), label.shapes = negativeLabel text more →
        Parser.caseLabel label =
          .fail (Parser.invalidLiteral (label.drop 2).next.span) (label.drop 3)) := by
  intro token c inRange
  have hlexeme : c.next.lexeme.toList = text := String.toList_ofList
  refine ⟨h.tokenize, h.tokenize_label, ?_, ?_⟩
  · rintro ⟨hne, hrange⟩
    obtain ⟨v, hv, hvalue⟩ := h.exists_value hne hrange
    refine ⟨⟨v, hvalue, Parser.expressionAt_of_number rfl (hlexeme ▸ hv) rfl⟩, ?_⟩
    intro label more hlabel
    refine ⟨-v, ?_, by rw [Parser.caseLabel_negative hlabel, hv]⟩
    rw [Int64.toInt_neg, hvalue]
    apply Int.bmod_eq_of_le <;> omega
  · intro hnot
    have hnone := h.readLiteral?_eq_none hnot
    refine ⟨Parser.expressionAt_of_invalidLiteral rfl (hlexeme ▸ hnone), ?_⟩
    intro label more hlabel
    rw [Parser.caseLabel_negative hlabel, hnone]

/-- The largest number, with a needless zero in front of its digits, and the number after it. -/
theorem literals_exact_limits :
    let largest := "0X07fffFFFFffffFFFF".toList
    let next := "9223372036854775808".toList
    let cursor (text : List Char) := Cursor.ofTokens
      [⟨.number, String.ofList text, ⟨{}, byteLength text⟩⟩, .eof (.after {} text)]
    (∃ v : Int64, v.toInt = 2 ^ 63 - 1 ∧
      Parser.expressionAt (cursor largest) = (.integer ⟨{}, 19⟩ v, (cursor largest).advance)) ∧
    Parser.expressionAt (cursor next) =
      (.error ⟨{}, 19⟩ [⟨⟨{}, 19⟩, "Invalid integer literal"⟩], cursor next) := by
  intro largest next cursor
  have hlargest : IsLiteral largest 16 "07fffFFFFffffFFFF".toList :=
    .hexadecimal (.inr rfl) fun c hc => isHexDigit_iff.2 (List.all_eq_true.1 (by decide) c hc)
  have hnext : IsLiteral next 10 next :=
    .decimal (by decide) fun c hc => isDigit_iff.2 (List.all_eq_true.1 (by decide) c hc)
  exact ⟨((literals_exact hlargest).2.2.1 (by decide)).1,
    ((literals_exact hnext).2.2.2 (by decide)).1⟩

end Scripting
