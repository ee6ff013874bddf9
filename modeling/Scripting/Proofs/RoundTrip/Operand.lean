import Scripting.Proofs.RoundTrip.Legible
import Scripting.Proofs.RoundTrip.Taking

/-!
Numbers, lists and levels of binary operators: the parts of expressions that are read back without
knowing how expressions themselves are.
-/

namespace Scripting

/-! Numbers. -/

theorem Text.digitsValue_eq (digits : List Char) (read : Nat) (h : ∀ c ∈ digits, c.isDigit = true) :
    Text.digitsValue 10 read digits = Nat.ofDigitChars 10 digits read := by
  induction digits generalizing read with
  | nil => rfl
  | cons c rest ih =>
    have hvalue : Text.digitValue? c = some (c.toNat - 48) := if_pos (h c (by simp))
    rw [Text.digitsValue, hvalue, Nat.ofDigitChars_cons, ih _ fun d hd => h d (by simp [hd]),
      Nat.mul_comm]
    rfl

theorem Text.readDigits?_toDigits (n : Nat) : Text.readDigits? 10 (Nat.toDigits 10 n) = some n := by
  have hdigit : ∀ c ∈ Nat.toDigits 10 n, c.isDigit = true :=
    fun c hc => Nat.isDigit_of_mem_toDigits (by omega) (by omega) hc
  have hall : (Nat.toDigits 10 n).all (Text.isDigitOf 10) = true := by
    rw [List.all_eq_true]
    intro c hc
    have hbounds := hdigit c hc
    simp only [Char.isDigit, ge_iff_le, Bool.and_eq_true, decide_eq_true_eq,
      UInt32.le_iff_toNat_le] at hbounds
    exact Text.isDigitOf_iff_bounds.2 hbounds
  have hempty : (Nat.toDigits 10 n).isEmpty = false := by simp
  rw [Text.readDigits?, hempty, hall, Text.digitsValue_eq _ _ hdigit,
    Nat.ofDigitChars_toDigits (by omega) (by omega)]
  rfl

/-- A number that is not negative is read back from its digits. -/
theorem Text.readLiteral?_toString {n : Int64} (h : 0 ≤ n.toInt) :
    Text.readLiteral? (toString n.toInt).toList = some n := by
  obtain ⟨m, hm⟩ : ∃ m : Nat, n.toInt = m := ⟨_, (Int.toNat_of_nonneg h).symm⟩
  have htext : (toString n.toInt).toList = Nat.toDigits 10 m := by
    rw [hm]
    exact (congrArg String.toList Nat.toString_eq_ofList_toDigits).trans String.toList_ofList
  have hhex : ∀ c ∈ Nat.toDigits 10 m, c ≠ 'x' ∧ c ≠ 'X' := by
    intro c hc
    have hdigit := Nat.isDigit_of_mem_toDigits (by omega) (by omega) hc
    constructor <;> rintro rfl <;> exact absurd hdigit (by decide)
  have hint : Text.int64? m = some n := by
    have hlt := n.toInt_lt
    rw [Text.int64?, if_pos (by omega), ← hm, Int64.ofInt_toInt]
  rw [htext]
  unfold Text.readLiteral?
  simp only
  split
  · rename_i heq
    exact absurd rfl (hhex 'x' (by simp [heq])).1
  · rename_i heq
    exact absurd rfl (hhex 'X' (by simp [heq])).2
  · rw [Text.readDigits?_toDigits, Option.bind_some, hint]

/-- There are no more lists than elements in them, if none is empty. -/
theorem Shape.length_le_length_listed (lists : List (List Shape)) (h : ∀ l ∈ lists, l ≠ []) :
    lists.length ≤ (Shape.listed lists).length := by
  induction lists with
  | nil => simp
  | cons first rest ih =>
    have hfirst := List.length_pos_iff.2 (h first (by simp))
    have hrest := ih fun l hl => h l (by simp [hl])
    cases rest with
    | nil =>
      simp only [Shape.listed, List.length_singleton]
      omega
    | cons second rest =>
      simp only [Shape.listed, List.length_append, List.length_cons] at hrest ⊢
      omega

namespace Parser

variable {all rest more : List Shape} {t : Shape}

theorem takes_integerValue {n : Int64} (h : 0 ≤ n.toInt) {token : Token}
    (htoken : token.shape = .number n.toInt) : Takes all all (· = n) (integerValue token) := by
  have hlexeme : token.lexeme = toString n.toInt := congrArg Shape.lexeme htoken
  rw [integerValue, hlexeme, Text.readLiteral?_toString h]
  exact takes_pure rfl

/-! Parameters. -/

theorem takes_params {limit : Nat} (name : String) (names : List String) (hmore : more ≠ [])
    (hlimit : names.length < limit) :
    Takes (Shape.listed ((name :: names).map fun p => [.identifier p]) ++ .rightParen :: more)
      more (· = name :: names) (params limit) := by
  induction names generalizing name limit with
  | nil =>
    obtain _ | limit := limit
    · simp at hlimit
    refine Takes.bind (takes_expectName (by simp)) ?_
    rintro _ rfl
    refine Takes.bind (takes_accept_of_ne .rightParen rfl (by simp [Shape.rightParen])) ?_
    rintro _ rfl
    exact takes_expected (t := .rightParen) rfl hmore (takes_pure rfl)
  | cons second names ih =>
    obtain _ | limit := limit
    · simp at hlimit
    refine Takes.bind (takes_expectName (by simp)) ?_
    rintro _ rfl
    refine takes_accepted (t := .comma) rfl (by simp) ?_
    refine Takes.bind (ih second (by simp at hlimit; omega)) ?_
    rintro _ rfl
    exact takes_pure rfl

theorem takes_paramList (names : List String) (hmore : more ≠ []) :
    Takes (Shape.listed (names.map fun p => [.identifier p]) ++ .rightParen :: more) more
      (· = names) paramList := by
  cases names with
  | nil =>
    refine takes_accepted (t := .rightParen) rfl hmore ?_
    exact takes_pure rfl
  | cons name names =>
    have hfirst : (Shape.listed ((name :: names).map fun p => [.identifier p]) ++
        .rightParen :: more).head? = some (.identifier name) := by
      cases names <;> rfl
    refine Takes.bind (takes_accept_of_ne _ hfirst (by simp [Shape.identifier])) ?_
    rintro _ rfl
    refine takes_bounded (takes_params name names hmore ?_)
    have hlength := Shape.length_le_length_listed ((name :: names).map fun p => [.identifier p])
      (by simp)
    simp only [List.length_map, List.length_cons] at hlength
    simp only [List.length_append, List.length_cons]
    omega

/-! Levels of binary operators. -/

/-- A level that does not know the next token as an operator gives its operand. -/
theorem Takes.binaryLevel {operand : Parser Expr} {op? : TokenKind → Option BinaryOp}
    {Q : Expr → Prop} (h : Takes all (t :: more) Q operand) (ht : op? t.kind = none) :
    Takes all (t :: more) Q (Parser.binaryLevel operand op?) := by
  refine Takes.bind h fun left hleft => takes_bounded ?_
  rw [List.length_cons, binaryRest]
  refine takes_nextKind t rfl ?_
  rw [ht]
  exact takes_pure hleft

theorem Takes.binaryLevels {levels : List (TokenKind → Option BinaryOp)} {operand : Parser Expr}
    {Q : Expr → Prop} (h : Takes all (t :: more) Q operand)
    (ht : ∀ op? ∈ levels, op? t.kind = none) :
    Takes all (t :: more) Q (levels.foldl Parser.binaryLevel operand) := by
  induction levels generalizing operand with
  | nil => exact h
  | cons op? levels ih =>
    exact ih (h.binaryLevel (ht op? (by simp))) fun op? hop => ht op? (by simp [hop])

/-- Two operands with an operator between them, which the first level that knows it takes. -/
theorem takes_binary {levels : List (TokenKind → Option BinaryOp)} {operand : Parser Expr}
    {u : Shape} {middle : List Shape} {op : BinaryOp} {left right : Expr}
    (hleft : Takes all (u :: middle) (·.bare = left.bare) operand)
    (hright : Takes middle (t :: more) (·.bare = right.bare) operand)
    (hu : levels.findSome? (· u.kind) = some op) (hueof : u.kind ≠ .eof) (hmiddle : middle ≠ [])
    (ht : ∀ op? ∈ levels, op? t.kind = none) :
    Takes all (t :: more) (·.bare = .binary {} op left.bare right.bare)
      (levels.foldl Parser.binaryLevel operand) := by
  induction levels generalizing operand with
  | nil => cases hu
  | cons op? levels ih =>
    have hnext : ∀ op? ∈ levels, op? t.kind = none := fun op? hop => ht op? (by simp [hop])
    rw [List.findSome?_cons] at hu
    cases hop : op? u.kind with
    | none =>
      rw [hop] at hu
      exact ih (hleft.binaryLevel hop) (hright.binaryLevel (ht op? (by simp))) hu hnext
    | some op' =>
      rw [hop] at hu
      cases hu
      rw [List.foldl_cons]
      refine Takes.binaryLevels ?_ hnext
      refine Takes.bind hleft fun left' hleft' => takes_bounded ?_
      rw [List.length_cons, binaryRest]
      refine takes_nextKind u rfl ?_
      rw [hop]
      refine takes_past (beq_false_of_ne hueof) hmiddle ?_
      refine Takes.bind hright fun right' hright' => ?_
      obtain ⟨limit, hlimit⟩ : ∃ k, middle.length = k + 1 :=
        ⟨middle.length - 1, by have := List.length_pos_iff.2 hmiddle; omega⟩
      -- no operator of this level follows
      rw [hlimit, binaryRest]
      refine takes_nextKind t rfl ?_
      rw [ht op? (by simp)]
      exact takes_pure (by simp [Expr.bare, hleft', hright'])

end Parser

end Scripting
