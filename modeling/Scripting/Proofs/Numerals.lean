import Mathlib.Data.Nat.Digits.Defs
import Scripting.Eval.Conversion
import Scripting.Proofs.RoundTrip.Operand
import Scripting.Proofs.Scanning.Vocabulary

/-!
The numbers that numerals denote.

Digits count by their places (`Text.numberOf`), a numeral may have a sign and blanks around it
(`Text.Denotes`). Main statements: the readers of digits, of signed numerals and of the texts of string
objects accept exactly the numerals whose number is in range, and give that number
(`readDigits?_eq_some_iff`, `readInt?_eq_some_iff`, `textToInt?_eq_some_iff`); an integer is denoted by
the text it is shown as (`denotes_toString`).
-/

namespace Scripting.Text

variable {text : List Char}

open Vocabulary

/-- The digits, each at the place that is its value. -/
def alphabet : List Char :=
  ['0', '1', '2', '3', '4', '5', '6', '7', '8', '9', 'a', 'b', 'c', 'd', 'e', 'f']

/-- The value of a digit. Letters count alike in both cases. -/
def digit (c : Char) : Nat :=
  alphabet.idxOf c.toLower

/-- The number that digits denote in a base, the most significant digit first. -/
def numberOf (base : Nat) (digits : List Char) : Nat :=
  Nat.ofDigits base (digits.reverse.map digit)

/-! Digits. -/

theorem numberOf_cons (base : Nat) (c : Char) (rest : List Char) :
    numberOf base (c :: rest) = digit c * base ^ rest.length + numberOf base rest := by
  rw [numberOf, List.reverse_cons, List.map_append, Nat.ofDigits_append, List.length_map,
    List.length_reverse, List.map_singleton, Nat.ofDigits_singleton, ← numberOf, Nat.add_comm,
    Nat.mul_comm]

/-- Only characters of one byte are digits. -/
theorem toNat_lt_of_digitValue? {c : Char} {value : Nat} (h : digitValue? c = some value) :
    c.toNat < 128 := by
  simp only [digitValue?, Char.le_def, UInt32.le_iff_toNat_le, Char.toNat, Bool.and_eq_true,
    decide_eq_true_eq] at h ⊢
  grind

theorem digit_of_digitValue? {c : Char} {value : Nat} (h : digitValue? c = some value) :
    digit c = value := by
  have hsmall : ∀ n < 128, ∀ value ∈ digitValue? (Char.ofNat n), digit (Char.ofNat n) = value := by
    decide +kernel
  have hc := hsmall c.toNat (toNat_lt_of_digitValue? h)
  rw [Char.ofNat_toNat] at hc
  exact hc value h

/-- Reading from the left counts every digit by its place. -/
theorem digitsValue_eq_numberOf {base : Nat} {digits : List Char}
    (h : ∀ c ∈ digits, isDigitOf base c = true) (read : Nat) :
    digitsValue base read digits = read * base ^ digits.length + numberOf base digits := by
  induction digits generalizing read with
  | nil => simp [digitsValue, numberOf]
  | cons c rest ih =>
    rw [List.forall_mem_cons] at h
    obtain ⟨value, hvalue⟩ : ∃ value, digitValue? c = some value := by
      cases hc : digitValue? c with
      | none =>
        rw [isDigitOf, hc] at h
        cases h.1
      | some value => exact ⟨value, rfl⟩
    rw [digitsValue, hvalue, Option.getD_some, ih h.2, numberOf_cons, digit_of_digitValue? hvalue,
      List.length_cons, Nat.pow_succ, Nat.add_mul, Nat.mul_assoc, Nat.mul_comm base, Nat.add_assoc]

theorem readDigits?_eq_some_iff {base : Nat} {n : Nat} :
    readDigits? base text = some n ↔
      text ≠ [] ∧ (∀ c ∈ text, isDigitOf base c = true) ∧ n = numberOf base text := by
  unfold readDigits?
  by_cases h : text ≠ [] ∧ ∀ c ∈ text, isDigitOf base c = true
  · have hall : (text.isEmpty || !text.all (isDigitOf base)) = false := by
      rw [Bool.or_eq_false_iff, List.isEmpty_eq_false_iff, Bool.not_eq_false', List.all_eq_true]
      exact h
    rw [hall, if_neg Bool.false_ne_true, digitsValue_eq_numberOf h.2, Nat.zero_mul, Nat.zero_add,
      Option.some.injEq, eq_comm]
    exact ⟨fun hn => ⟨h.1, h.2, hn⟩, fun hn => hn.2.2⟩
  · have hsome : (text.isEmpty || !text.all (isDigitOf base)) = true := by
      by_contra hnot
      rw [Bool.not_eq_true, Bool.or_eq_false_iff, List.isEmpty_eq_false_iff, Bool.not_eq_false',
        List.all_eq_true] at hnot
      exact h hnot
    rw [hsome, if_pos rfl]
    exact ⟨nofun, fun hn => absurd ⟨hn.1, hn.2.1⟩ h⟩

/-! Integers of 64 bits. -/

theorem int64?_eq_some_iff {z : Int} {n : Int64} : int64? z = some n ↔ n.toInt = z := by
  unfold int64?
  split
  · rename_i hrange
    rw [Option.some.injEq, ← Int64.toInt_inj, Int64.toInt_ofInt_of_le hrange.1 hrange.2, eq_comm]
  · rename_i hrange
    refine ⟨nofun, ?_⟩
    rintro rfl
    exact absurd ⟨n.le_toInt, n.toInt_lt⟩ hrange

/-- The range of the integers of 64 bits. -/
theorem exists_toInt_eq_iff {z : Int} :
    (∃ n : Int64, n.toInt = z) ↔ -2 ^ 63 ≤ z ∧ z ≤ 2 ^ 63 - 1 := by
  constructor
  · rintro ⟨n, rfl⟩
    have hlt := n.toInt_lt
    exact ⟨n.le_toInt, by omega⟩
  · rintro ⟨hle, hlt⟩
    exact ⟨Int64.ofInt z, Int64.toInt_ofInt_of_le hle (by omega)⟩

/-! Signed numerals. -/

/-- What may stand in front of decimal digits. -/
inductive Sign where
  | none
  | plus
  | minus
deriving DecidableEq, Repr

def Sign.written : Sign → List Char
  | none => []
  | plus => ['+']
  | minus => ['-']

/-- What a sign makes of the number behind it. -/
def Sign.apply (sign : Sign) (n : Nat) : Int :=
  match sign with
  | none | plus => n
  | minus => -n

/-- An optional sign and one or more decimal digits. -/
inductive IsNumeral : List Char → Int → Prop where
  | signed (sign : Sign) {digits : List Char} (hne : digits ≠ []) (hdigits : ∀ c ∈ digits, IsDigit c) :
      IsNumeral (sign.written ++ digits) (sign.apply (numberOf 10 digits))

/-- A text that denotes an integer: a numeral, with any blanks around it. -/
inductive Denotes : List Char → Int → Prop where
  | blanks {front numeral back : List Char} {z : Int} (hfront : ∀ c ∈ front, isBlank c = true)
      (hnumeral : IsNumeral numeral z) (hback : ∀ c ∈ back, isBlank c = true) :
      Denotes (front ++ numeral ++ back) z

theorem readDigits?_decimal {digits : List Char} (hne : digits ≠ [])
    (hdigits : ∀ c ∈ digits, IsDigit c) :
    readDigits? 10 digits = some (numberOf 10 digits) :=
  readDigits?_eq_some_iff.2 ⟨hne, fun c hc => isDigit_iff.1 (hdigits c hc), rfl⟩

theorem isNumeral_of_readDigits? (sign : Sign) {digits : List Char} {n : Nat}
    (h : readDigits? 10 digits = some n) : IsNumeral (sign.written ++ digits) (sign.apply n) := by
  obtain ⟨hne, hdigits, rfl⟩ := readDigits?_eq_some_iff.1 h
  exact .signed sign hne fun c hc => isDigit_iff.2 (hdigits c hc)

theorem readInt?_eq_some_iff {z : Int} : readInt? text = some z ↔ IsNumeral text z := by
  constructor
  · intro h
    unfold readInt? at h
    split at h
    · obtain ⟨n, hn, rfl⟩ := Option.map_eq_some_iff.1 h
      exact isNumeral_of_readDigits? .plus hn
    · obtain ⟨n, hn, rfl⟩ := Option.map_eq_some_iff.1 h
      exact isNumeral_of_readDigits? .minus hn
    · obtain ⟨n, hn, rfl⟩ := Option.map_eq_some_iff.1 h
      exact isNumeral_of_readDigits? .none hn
  · rintro ⟨sign, hne, hdigits⟩
    rename_i digits
    have hread := readDigits?_decimal hne hdigits
    cases sign with
    | plus => exact congrArg (Option.map Int.ofNat) hread
    | minus => exact congrArg (Option.map fun n : Nat => -Int.ofNat n) hread
    | none =>
      -- a sign is no digit
      change readInt? digits = _
      unfold readInt?
      split
      · exact absurd (hdigits '+' (by simp)) (by rw [isDigit_iff]; decide)
      · exact absurd (hdigits '-' (by simp)) (by rw [isDigit_iff]; decide)
      · exact congrArg (Option.map Int.ofNat) hread

/-! Blanks around a numeral. -/

theorem isBlank_of_isDigit {c : Char} (h : IsDigit c) : isBlank c = false := by
  have hbounds := isDigitOf_iff_bounds.1 (isDigit_iff.1 h)
  simp [isBlank]
  omega

theorem IsNumeral.ne_nil {z : Int} (h : IsNumeral text z) : text ≠ [] := by
  obtain ⟨sign, hne, -⟩ := h
  simp [hne]

theorem IsNumeral.head {z : Int} (h : IsNumeral text z) : ∀ c ∈ text.head?, isBlank c = false := by
  obtain ⟨sign, hne, hdigits⟩ := h
  rename_i digits
  intro c hc
  cases sign with
  | none => exact isBlank_of_isDigit (hdigits c (List.mem_of_mem_head? hc))
  | plus =>
    cases hc
    decide
  | minus =>
    cases hc
    decide

theorem IsNumeral.last {z : Int} (h : IsNumeral text z) :
    ∀ c ∈ text.getLast?, isBlank c = false := by
  obtain ⟨sign, hne, hdigits⟩ := h
  rename_i digits
  intro c hc
  rw [List.getLast?_append_of_ne_nil _ hne] at hc
  exact isBlank_of_isDigit (hdigits c (List.mem_of_mem_getLast? hc))

/-- Trimming takes off blanks at both ends. -/
theorem exists_append_trim (text : List Char) :
    ∃ front back, text = front ++ trim text ++ back ∧ (∀ c ∈ front, isBlank c = true) ∧
      ∀ c ∈ back, isBlank c = true := by
  have hrest (text : List Char) : text =
      trimEnd text ++ (text.reverse.takeWhile isBlank).reverse := by
    rw [trimEnd, ← List.reverse_append, List.takeWhile_append_dropWhile, List.reverse_reverse]
  refine ⟨text.takeWhile isBlank,
    ((text.dropWhile isBlank).reverse.takeWhile isBlank).reverse, ?_, ?_, ?_⟩
  · rw [trim, List.append_assoc, ← hrest, List.takeWhile_append_dropWhile]
  · exact List.all_eq_true.1 List.all_takeWhile
  · intro c hc
    exact List.all_eq_true.1 List.all_takeWhile c (List.mem_reverse.1 hc)

/-- A text that neither starts nor ends with a blank is what trimming leaves. -/
theorem trim_append {front middle back : List Char} (hfront : ∀ c ∈ front, isBlank c = true)
    (hback : ∀ c ∈ back, isBlank c = true) (hne : middle ≠ [])
    (hhead : ∀ c ∈ middle.head?, isBlank c = false)
    (hlast : ∀ c ∈ middle.getLast?, isBlank c = false) : trim (front ++ middle ++ back) = middle := by
  have hdrop : (front ++ (middle ++ back)).dropWhile isBlank = middle ++ back := by
    apply dropWhile_append_eq hfront
    rwa [List.head?_append_of_ne_nil _ hne]
  have hend : (back.reverse ++ middle.reverse).dropWhile isBlank = middle.reverse := by
    apply dropWhile_append_eq fun c hc => hback c (List.mem_reverse.1 hc)
    rwa [List.head?_reverse]
  rw [trim, trimEnd, List.append_assoc, hdrop, List.reverse_append, hend, List.reverse_reverse]

theorem readInt?_trim_eq_some_iff {z : Int} : readInt? (trim text) = some z ↔ Denotes text z := by
  rw [readInt?_eq_some_iff]
  constructor
  · intro h
    obtain ⟨front, back, htext, hfront, hback⟩ := exists_append_trim text
    rw [htext]
    exact .blanks hfront h hback
  · rintro ⟨hfront, hnumeral, hback⟩
    rwa [trim_append hfront hback hnumeral.ne_nil hnumeral.head hnumeral.last]

/-- The text of a string object converts exactly if it denotes an integer of 64 bits. -/
theorem textToInt?_eq_some_iff {text : String} {n : Int64} :
    Eval.textToInt? text = some n ↔ Denotes text.toList n.toInt := by
  rw [Eval.textToInt?_eq, readInt64?, Option.bind_eq_some_iff]
  simp only [int64?_eq_some_iff, readInt?_trim_eq_some_iff]
  constructor
  · rintro ⟨z, hz, hn⟩
    rwa [hn]
  · exact fun h => ⟨n.toInt, h, rfl⟩

/-! Integers as they are shown. -/

theorem isNumeral_toString (z : Int) : IsNumeral (toString z).toList z := by
  have htext (n : Nat) : (toString n).toList = Nat.toDigits 10 n :=
    (congrArg String.toList Nat.toString_eq_ofList_toDigits).trans String.toList_ofList
  cases z with
  | ofNat n =>
    have hnumeral := isNumeral_of_readDigits? .none (readDigits?_toDigits n)
    rwa [← htext] at hnumeral
  | negSucc n =>
    have hnumeral := isNumeral_of_readDigits? .minus (readDigits?_toDigits (n + 1))
    rw [← htext] at hnumeral
    have hshown : (toString (Int.negSucc n)).toList =
        Sign.minus.written ++ (toString (n + 1)).toList :=
      String.toList_append
    rwa [hshown]

theorem denotes_toString {front back : List Char} (hfront : ∀ c ∈ front, isBlank c = true)
    (z : Int) (hback : ∀ c ∈ back, isBlank c = true) :
    Denotes (front ++ (toString z).toList ++ back) z :=
  .blanks hfront (isNumeral_toString z) hback

end Scripting.Text
