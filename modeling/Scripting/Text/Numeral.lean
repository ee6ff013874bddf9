/-!
Numerals: reading digit strings in a base, and the signed 64-bit integers they may denote.

A numeral is exact or refused. No reader here reduces a value modulo the width of the result.
-/

namespace Scripting.Text

/-- The value of a hexadecimal digit of either case; a decimal digit is one of them. -/
def digitValue? (c : Char) : Option Nat :=
  if '0' ≤ c && c ≤ '9' then some (c.toNat - '0'.toNat)
  else if 'a' ≤ c && c ≤ 'f' then some (c.toNat - 'a'.toNat + 10)
  else if 'A' ≤ c && c ≤ 'F' then some (c.toNat - 'A'.toNat + 10)
  else none

/-- Holds for a digit of the given base, up to base sixteen. -/
def isDigitOf (base : Nat) (c : Char) : Bool :=
  match digitValue? c with
  | some value => value < base
  | none => false

/-- The value of a digit string, the most significant digit first, after a value already read. -/
def digitsValue (base : Nat) (read : Nat) : List Char → Nat
  | [] => read
  | c :: rest => digitsValue base (read * base + (digitValue? c).getD 0) rest

/-- Reads one or more digits of a base. -/
def readDigits? (base : Nat) (text : List Char) : Option Nat :=
  if text.isEmpty || !text.all (isDigitOf base) then none else some (digitsValue base 0 text)

/-- The 64-bit integer equal to `value`, if there is one. -/
def int64? (value : Int) : Option Int64 :=
  if -0x8000000000000000 ≤ value ∧ value < 0x8000000000000000 then some (Int64.ofInt value) else none

/-- Reads an optional sign and one or more decimal digits. -/
def readInt? (text : List Char) : Option Int :=
  match text with
  | '+' :: digits => (readDigits? 10 digits).map Int.ofNat
  | '-' :: digits => (readDigits? 10 digits).map fun value => -Int.ofNat value
  | digits => (readDigits? 10 digits).map Int.ofNat

/-- Reads an integer literal: decimal digits, or hexadecimal digits after `0x` or `0X`. A sign in front of
the digits is refused. The lexer makes no number with a sign; the `-` of `-1` is a token of its own. -/
def readLiteral? (text : List Char) : Option Int64 :=
  let value := match text with
    | '0' :: 'x' :: digits => readDigits? 16 digits
    | '0' :: 'X' :: digits => readDigits? 16 digits
    | digits => readDigits? 10 digits
  value.bind fun n => int64? n

/-- Reads an optional sign and decimal digits whose value is a 64-bit integer. -/
def readInt64? (text : List Char) : Option Int64 :=
  (readInt? text).bind int64?

end Scripting.Text
