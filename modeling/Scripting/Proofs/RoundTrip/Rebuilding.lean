import Scripting.Proofs.RoundTrip.Legible
import Scripting.Proofs.RoundTrip.Taking

/-!
What it means that a grammar reads trees back from their shapes, and the tokens that trees start with.
-/

namespace Scripting

/-- The tokens that can start an expression. -/
def TokenKind.opens : TokenKind → Bool
  | .number | .string | .identifier | .leftParen => true
  | .keyword word => word = .newObject || word = .function || (Parser.special? word).isSome
  | _ => false

/-- The tokens that can start a statement, and some more: no statement starts with any other. -/
def TokenKind.begins : TokenKind → Bool
  | .number | .string | .identifier | .leftParen | .leftBrace => true
  | .keyword word =>
    word ≠ .elseBranch && word ≠ .caseLabel && word ≠ .defaultLabel && word ≠ .catchBlock
  | _ => false

/-- The tokens that stand behind an expression. -/
def TokenKind.closes : TokenKind → Bool
  | .rightParen | .rightBracket | .comma | .semicolon => true
  | _ => false

/-- The tokens with which an operand goes on. -/
def TokenKind.goesOn : TokenKind → Bool
  | .dot | .leftParen | .leftBracket | .plusPlus | .minusMinus => true
  | _ => false

/-- The shapes of an expression without the parentheses that are always written around it. -/
def Expr.content : Expr → List Shape
  | .unary _ op operand =>
    if op.isPostfix then operand.shapes ++ [op.shape] else op.shape :: operand.shapes
  | .binary _ op left right => left.shapes ++ op.shape :: right.shapes
  | .assign _ op target value => target.shapes ++ op.shape :: value.shapes
  | e => e.shapes

/-- The expressions that are always written in parentheses. -/
def Expr.isGrouped : Expr → Bool
  | .unary .. | .binary .. | .assign .. => true
  | _ => false

theorem Expr.shapes_of_isGrouped {e : Expr} (h : e.isGrouped = true) :
    e.shapes = .leftParen :: (e.content ++ [.rightParen]) := by
  cases e with
  | unary _ op operand =>
    rw [Expr.shapes, Expr.content]
    split <;> simp
  | binary | assign => simp [Expr.shapes, Expr.content]
  | _ => cases h

/-- The expressions that are read as a whole before any operator behind them. -/
def Expr.isPrimary : Expr → Bool
  | .member .. | .call .. | .subscript .. | .construct .. => false
  | _ => true

/-- A statement in front of other tokens: it is followed by the `;` it needs, and by no `else` that it
would take. -/
structure Stmt.EndsBefore (s : Stmt) (rest : List Shape) : Prop where
  semicolon : s.requiresSemicolon = true → rest.head?.map Shape.kind = some .semicolon
  noElse : s.endsOpen = true → rest.head?.map Shape.kind ≠ some (.keyword .elseBranch) ∧
    (s.requiresSemicolon = true → rest[1]?.map Shape.kind ≠ some (.keyword .elseBranch))

/-- A grammar that reads back the trees that are written with at most `n` tokens, statements with
fewer. -/
structure Grammar.Rebuilds (g : Grammar) (n : Nat) : Prop where
  expression : ∀ {e : Expr} {t more}, e.Legible → e.shapes.length ≤ n → t.kind.closes = true →
    Parser.Takes (e.shapes ++ t :: more) (t :: more) (·.bare = e.bare) g.expression
  content : ∀ {e : Expr} {t more}, e.Legible → e.content.length ≤ n → t.kind.closes = true →
    Parser.Takes (e.content ++ t :: more) (t :: more) (·.bare = e.bare) g.expression
  operand : ∀ {e : Expr} {t more}, e.Legible → e.shapes.length ≤ n → t.kind.goesOn = false →
    Parser.Takes (e.shapes ++ t :: more) (t :: more) (·.bare = e.bare) g.operand
  statement : ∀ {s : Stmt} {rest}, s.Legible → s.shapes.length < n → rest ≠ [] →
    s.EndsBefore rest → Parser.Takes (s.shapes ++ rest) rest (·.bare = s.bare) g.statement

/-- An expression starts with a token that opens one; a function in front has no name if the whole
expression may start a statement. -/
theorem Expr.shapes_eq_cons : (e : Expr) → e.Legible →
    ∃ t tail, e.shapes = t :: tail ∧ t.kind.opens = true ∧ (e.startsNamed = false →
      t.kind = .keyword .function → tail.head? = some .leftParen)
  | .member _ object name, h => by
    simp only [Legible, every, Bool.and_eq_true] at h
    obtain ⟨t, tail, hshapes, hopens, hplain⟩ := object.shapes_eq_cons h.2
    refine ⟨t, _, by rw [shapes, hshapes, List.cons_append], hopens, fun hnamed hkind => ?_⟩
    simp [hplain hnamed hkind]
  | .call _ callee args, h => by
    simp only [Legible, every, Bool.and_eq_true] at h
    obtain ⟨t, tail, hshapes, hopens, hplain⟩ := callee.shapes_eq_cons h.1.2
    refine ⟨t, _, by rw [shapes, hshapes, List.cons_append, List.cons_append], hopens,
      fun hnamed hkind => ?_⟩
    simp [hplain hnamed hkind]
  | .subscript _ object index, h => by
    simp only [Legible, every, Bool.and_eq_true] at h
    obtain ⟨t, tail, hshapes, hopens, hplain⟩ := object.shapes_eq_cons h.1.2
    refine ⟨t, _, by rw [shapes, hshapes, List.cons_append, List.cons_append], hopens,
      fun hnamed hkind => ?_⟩
    simp [hplain hnamed hkind]
  | .unary _ op operand, _ => by
    rw [shapes]
    split <;> exact ⟨_, _, rfl, rfl, fun _ hkind => by simp [Shape.leftParen] at hkind⟩
  | .special _ value, _ =>
    ⟨_, _, rfl, by cases value <;> rfl, fun _ hkind => by cases value <;> cases hkind⟩
  | .integer .., _ | .string .., _ | .identifier .., _ | .construct .., _ | .binary .., _
  | .assign .., _ => ⟨_, _, rfl, rfl, fun _ hkind => by cases hkind⟩
  | .function _ (.mk _ none _ _), _ => ⟨_, _, rfl, rfl, fun _ _ => rfl⟩
  | .function _ (.mk _ (some _) _ _), _ => ⟨_, _, rfl, rfl, fun hnamed => by cases hnamed⟩
  | .error .., h => by simp [Legible, every, isLegible, isRead] at h

theorem Expr.head?_shapes (e : Expr) (h : e.Legible) :
    ∃ t, e.shapes.head? = some t ∧ t.kind.opens = true := by
  obtain ⟨t, tail, hshapes, hopens, -⟩ := e.shapes_eq_cons h
  exact ⟨t, by rw [hshapes, List.head?_cons], hopens⟩

theorem Expr.Legible.shapes_ne_nil {e : Expr} (h : e.Legible) : e.shapes ≠ [] := by
  obtain ⟨t, ht, -⟩ := e.head?_shapes h
  rintro hnil
  simp [hnil] at ht

theorem TokenKind.begins_of_opens {kind : TokenKind} (h : kind.opens = true) :
    kind.begins = true := by
  cases kind <;> first | rfl | cases h | skip
  rename_i word
  cases word <;> first | rfl | cases h

theorem Stmt.head?_shapes {s : Stmt} (hread : s.isRead = true) (h : s.LegibleInside) :
    ∃ t, s.shapes.head? = some t ∧ t.kind.begins = true := by
  cases s with
  | expression _ e =>
    obtain ⟨t, ht, hopens⟩ := e.head?_shapes h
    exact ⟨t, ht, TokenKind.begins_of_opens hopens⟩
  | forLoop => exact ⟨_, by rw [Stmt.shapes_forLoop]; rfl, rfl⟩
  | ifElse _ _ _ branch => cases branch <;> exact ⟨_, rfl, rfl⟩
  | returnValue _ value => cases value <;> exact ⟨_, rfl, rfl⟩
  | declare _ kind _ init => cases kind <;> cases init <;> exact ⟨_, rfl, rfl⟩
  | function _ definition =>
    obtain ⟨_, _, _, _⟩ := definition
    exact ⟨_, rfl, rfl⟩
  | error => cases hread
  | _ => exact ⟨_, rfl, rfl⟩

theorem Stmt.Legible.length_shapes_pos {s : Stmt} (h : s.Legible) : 0 < s.shapes.length := by
  obtain ⟨t, ht, -⟩ := s.head?_shapes h.isRead h.inside
  rw [List.length_pos_iff]
  rintro hnil
  simp [hnil] at ht

/-- Whether a statement needs a `;` does not depend on its spans. -/
theorem Stmt.requiresSemicolon_bare : (s : Stmt) → s.bare.requiresSemicolon = s.requiresSemicolon
  | .ifElse _ _ thenBranch none => by
    simp only [Stmt.bare, requiresSemicolon, thenBranch.requiresSemicolon_bare]
  | .ifElse _ _ _ (some branch) => by
    simp only [Stmt.bare, requiresSemicolon, branch.requiresSemicolon_bare]
  | .whileLoop _ _ body => by
    simp only [Stmt.bare, requiresSemicolon, body.requiresSemicolon_bare]
  | .forLoop _ _ _ _ body => by
    simp only [Stmt.bare_forLoop, requiresSemicolon, body.requiresSemicolon_bare]
  | .tryCatch _ _ _ handler => by
    simp only [Stmt.bare, requiresSemicolon, handler.requiresSemicolon_bare]
  | .expression .. | .block .. | .switch .. | .throwValue .. | .breakLoop .. | .continueLoop ..
  | .function .. | .error .. => rfl
  | .returnValue _ none | .returnValue _ (some _) => rfl
  | .declare _ _ _ none | .declare _ _ _ (some _) => rfl

end Scripting
