import Scripting.Parser.Program

/-!
Leaves: the names, numbers and texts that a source is made of, in the tokens and in the trees read from
them.

Most tokens say nothing that a tree has to repeat. An identifier, a number and a string do, and so does
a keyword behind a `.`, where it is the name of a member.
-/

namespace Scripting

/-- What one leaf says. A number token that is no number says `none`; no tree has such a leaf. -/
inductive Leaf where
  | name (text : String)
  | number (value : Option Int)
  | text (text : String)
deriving DecidableEq, Repr

/-! Leaves of tokens. -/

namespace Token

/-- The leaf of one token. -/
def leaves (t : Token) (afterDot : Bool) : List Leaf :=
  match t.kind with
  | .identifier => [.name t.lexeme]
  | .keyword _ => if afterDot then [.name t.lexeme] else []
  | .number => [.number ((Text.readLiteral? t.lexeme.toList).map Int64.toInt)]
  | .string => [.text t.lexeme]
  | _ => []

/-- The leaves of tokens in their order. -/
def leavesFrom : Bool → List Token → List Leaf
  | _, [] => []
  | afterDot, t :: rest => t.leaves afterDot ++ leavesFrom (t.kind = .dot) rest

/-- The last of the tokens is `eof`, and no other is. -/
def EndsOnce : List Token → Prop
  | [] => False
  | [t] => t.kind = .eof
  | t :: u :: rest => t.kind ≠ .eof ∧ EndsOnce (u :: rest)

end Token

/-- The kinds of tokens that have no leaf and do not make one of the next token. -/
@[simp] def TokenKind.isSilent : TokenKind → Bool
  | .identifier | .number | .string | .dot | .eof => false
  | _ => true

theorem Token.leaves_of_isSilent {t : Token} (h : t.kind.isSilent = true) : t.leaves false = [] := by
  unfold Token.leaves
  split <;> simp_all [TokenKind.isSilent]

/-! Leaves of trees. -/

/-- The number of a label, without its sign. -/
@[simp] def CaseLabel.leaves : CaseLabel → List Leaf
  | .value n => [.number (some n.toInt.natAbs)]
  | .default => []

mutual

@[simp] def Expr.leaves : Expr → List Leaf
  | .integer _ value => [.number (some value.toInt)]
  | .string _ text => [.text text]
  | .identifier _ name => [.name name]
  | .special .. => []
  | .member _ object name => object.leaves ++ [.name name]
  | .call _ callee args => callee.leaves ++ Expr.leavesAll args
  | .subscript _ object index => object.leaves ++ index.leaves
  | .construct _ callee args => callee.leaves ++ Expr.leavesAll args
  | .unary _ _ operand => operand.leaves
  | .binary _ _ left right => left.leaves ++ right.leaves
  | .assign _ _ target value => target.leaves ++ value.leaves
  | .function _ definition => definition.leaves
  | .error .. => []

@[simp] def Expr.leavesAll : List Expr → List Leaf
  | [] => []
  | e :: rest => e.leaves ++ Expr.leavesAll rest

@[simp] def FunctionDef.leaves : FunctionDef → List Leaf
  | .mk _ name params body =>
    name.toList.map .name ++ params.map .name ++ Item.leavesAll body

@[simp] def Item.leavesAll : List Item → List Leaf
  | [] => []
  | .mk label statement :: rest =>
    label.elim [] CaseLabel.leaves ++ statement.leaves ++ Item.leavesAll rest

@[simp] def Stmt.leaves : Stmt → List Leaf
  | .expression _ expr => expr.leaves
  | .block _ items => Item.leavesAll items
  | .ifElse _ condition thenBranch elseBranch =>
    condition.leaves ++ thenBranch.leaves ++
      (match elseBranch with | some branch => branch.leaves | none => [])
  | .whileLoop _ condition body => condition.leaves ++ body.leaves
  | .forLoop _ init condition update body =>
    (match init with | some clause => clause.leaves | none => []) ++
      (match condition with | some e => e.leaves | none => []) ++
      (match update with | some e => e.leaves | none => []) ++ body.leaves
  | .switch _ subject items => subject.leaves ++ Item.leavesAll items
  | .tryCatch _ body binding handler => body.leaves ++ .name binding :: handler.leaves
  | .throwValue _ value => value.leaves
  | .returnValue _ value => (match value with | some e => e.leaves | none => [])
  | .breakLoop _ | .continueLoop _ => []
  | .declare _ _ name init =>
    .name name :: (match init with | some e => e.leaves | none => [])
  | .function _ definition => definition.leaves
  | .error .. => []

end

/-- The leaves of a program in the order of the source. -/
def Program.leaves (p : Program) : List Leaf :=
  p.statements.flatMap Stmt.leaves

theorem Expr.leaves_withSpan (e : Expr) (span : Span) : (e.withSpan span).leaves = e.leaves := by
  cases e <;> simp only [Expr.withSpan, Expr.leaves]

theorem Stmt.leaves_forLoop (span : Span) (init : Option Stmt) (condition update : Option Expr)
    (body : Stmt) :
    (Stmt.forLoop span init condition update body).leaves =
      init.elim [] Stmt.leaves ++ condition.elim [] Expr.leaves ++ update.elim [] Expr.leaves ++
        body.leaves := by
  cases init <;> cases condition <;> cases update <;> simp only [Stmt.leaves, Option.elim]

theorem Stmt.leaves_ifElse (span : Span) (condition : Expr) (thenBranch : Stmt)
    (elseBranch : Option Stmt) :
    (Stmt.ifElse span condition thenBranch elseBranch).leaves =
      condition.leaves ++ thenBranch.leaves ++ elseBranch.elim [] Stmt.leaves := by
  cases elseBranch <;> simp only [Stmt.leaves, Option.elim]

/-! Where a cursor stands. -/

/-- The leaves of the tokens from a cursor on. -/
def Cursor.leaves (c : Cursor) : List Leaf :=
  Token.leavesFrom false (c.next :: c.rest)

/-- The cursor stands in `tokens`. Of the leaves `all` those in front of it are `taken`, and fewer than
`bound` tokens follow the next one. -/
structure Cursor.Stands (tokens : List Token) (all : List Leaf) (bound : Nat) (taken : List Leaf)
    (c : Cursor) : Prop where
  suffix : c.next :: c.rest <:+ tokens
  ends : Token.EndsOnce (c.next :: c.rest)
  leaves : all = taken ++ c.leaves
  left : c.left < bound

namespace Cursor

/-- Behind every token but the last one there is another one. -/
theorem advance_eq {c : Cursor} (hends : Token.EndsOnce (c.next :: c.rest))
    (hkind : c.next.kind ≠ .eof) :
    c.rest = c.advance.next :: c.advance.rest ∧ c.left = c.advance.left + 1 := by
  obtain ⟨last, next, rest, left, left_eq⟩ := c
  cases rest with
  | nil => exact absurd hends hkind
  | cons t rest =>
    simp only at hkind left_eq
    simp only [Cursor.advance, if_neg hkind, List.length_cons] at left_eq ⊢
    exact ⟨trivial, by omega⟩

namespace Stands

variable {tokens : List Token} {all taken : List Leaf} {bound : Nat} {c : Cursor}

theorem next_mem (h : c.Stands tokens all bound taken) : c.next ∈ tokens :=
  h.suffix.subset (by simp)

theorem exists_bound (h : c.Stands tokens all bound taken) : ∃ n, bound = n + 1 :=
  Nat.exists_eq_add_one_of_ne_zero (Nat.ne_zero_of_lt h.left)

/-- From here on the tokens that are left are not counted as taken. -/
theorem weaken (h : c.Stands tokens all bound taken) : c.Stands tokens all (bound + 1) taken :=
  ⟨h.suffix, h.ends, h.leaves, Nat.lt_succ_of_lt h.left⟩

/-- Taking a token that is neither the last one nor a `.`. -/
theorem advance (h : c.Stands tokens all (bound + 1) taken)
    (hkind : c.next.kind ≠ .eof ∧ c.next.kind ≠ .dot) :
    c.advance.Stands tokens all bound (taken ++ c.next.leaves false) := by
  obtain ⟨hrest, hleft⟩ := Cursor.advance_eq h.ends hkind.1
  have hsuffix := h.suffix
  have hends := h.ends
  have hleaves := h.leaves
  have hbound := h.left
  rw [Cursor.leaves, Token.leavesFrom, decide_eq_false hkind.2] at hleaves
  rw [hrest] at hsuffix hends hleaves
  constructor
  · exact (List.suffix_cons _ _).trans hsuffix
  · exact hends.2
  · rw [hleaves, List.append_assoc, Cursor.leaves]
  · omega

/-- Taking a token that has no leaf. -/
theorem take (h : c.Stands tokens all (bound + 1) taken) (hkind : c.next.kind.isSilent = true) :
    c.advance.Stands tokens all bound taken := by
  have hadvance := h.advance ⟨fun heof => by simp [heof] at hkind, fun hdot => by simp [hdot] at hkind⟩
  rwa [Token.leaves_of_isSilent hkind, List.append_nil] at hadvance

theorem skipSemicolons (h : c.Stands tokens all bound taken) :
    c.skipSemicolons.Stands tokens all bound taken := by
  unfold Cursor.skipSemicolons
  generalize c.left = n
  induction n generalizing c with
  | zero => exact h
  | succ n ih =>
    rw [Cursor.skipSemicolonsUpTo]
    split
    · exact ih (h.weaken.take (by simp [*]))
    · exact h

/-- Behind a `.` stands a token of the text. -/
theorem next_mem_afterDot (h : c.Stands tokens all bound taken) (hdot : c.next.kind = .dot) :
    c.advance.next ∈ tokens := by
  have hkind : c.next.kind ≠ .eof := by simp [hdot]
  have hsuffix := h.suffix
  rw [(Cursor.advance_eq h.ends hkind).1] at hsuffix
  exact hsuffix.subset (by simp)

/-- Taking a `.` and the name behind it, which may be a keyword. -/
theorem takeMember (h : c.Stands tokens all (bound + 1) taken) (hdot : c.next.kind = .dot)
    (hkind : c.advance.next.kind = .identifier ∨ ∃ word, c.advance.next.kind = .keyword word) :
    c.advance.advance.Stands tokens all bound (taken ++ [.name c.advance.next.lexeme]) := by
  obtain ⟨hname, heof, hother⟩ : c.advance.next.leaves true = [.name c.advance.next.lexeme] ∧
      c.advance.next.kind ≠ .eof ∧ c.advance.next.kind ≠ .dot := by
    obtain hkind | ⟨word, hkind⟩ := hkind <;> simp [Token.leaves, hkind]
  have hfirst : c.next.kind ≠ .eof := by simp [hdot]
  obtain ⟨hrest, hleft⟩ := Cursor.advance_eq h.ends hfirst
  have hsuffix := h.suffix
  have hends := h.ends
  have hleaves := h.leaves
  have hbound := h.left
  have hsilent : c.next.leaves false = [] := by simp [Token.leaves, hdot]
  rw [hrest] at hsuffix hends
  obtain ⟨hrest', hleft'⟩ := Cursor.advance_eq hends.2 heof
  rw [Cursor.leaves, Token.leavesFrom, hsilent, List.nil_append, decide_eq_true hdot, hrest,
    Token.leavesFrom, hname, decide_eq_false hother] at hleaves
  rw [hrest'] at hsuffix hends hleaves
  constructor
  · exact ((List.suffix_cons _ _).trans (List.suffix_cons _ _)).trans hsuffix
  · exact hends.2.2
  · rw [hleaves, List.append_assoc, Cursor.leaves]
  · omega

end Stands

end Cursor

end Scripting
