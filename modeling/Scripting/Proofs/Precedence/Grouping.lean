import Scripting.Proofs.RoundTrip.Shape

/-!
How operators group the operands of a sequence without parentheses.

From the loosest to the tightest there are the assignments, which group to the right, and five levels
of binary operators, which group to the left. Main statement: a sequence has at most one tree that is
grouped in this way (`Expr.InOrder.unique`).
-/

namespace Scripting

/-- An operand that is one token. -/
inductive Atom where
  | name (text : String)
  | number (value : Int64)
deriving DecidableEq, Repr

/-- The operand as an expression. -/
def Atom.expr : Atom → Expr
  | .name text => .identifier {} text
  | .number value => .integer {} value

/-- The operators that stand between two operands. -/
inductive Operator where
  | binary (op : BinaryOp)
  | assign (op : AssignOp)
deriving DecidableEq, Repr

/-- What a sequence of operands and operators is made of. -/
inductive Piece where
  | atom (a : Atom)
  | operator (o : Operator)
deriving DecidableEq, Repr

def BinaryOp.level : BinaryOp → Nat
  | .or => 1
  | .and => 2
  | .equal | .notEqual | .less | .lessEqual | .greater | .greaterEqual => 3
  | .add | .subtract => 4
  | .multiply | .divide | .modulo => 5

/-- How tightly an operator binds. -/
def Operator.level : Operator → Nat
  | .binary op => op.level
  | .assign _ => 0

theorem Operator.level_lt (o : Operator) : o.level < 6 := by
  cases o with
  | binary op => cases op <;> decide
  | assign op => exact Nat.zero_lt_succ 5

theorem Operator.level_assign_lt (op : AssignOp) (op' : BinaryOp) :
    (Operator.assign op).level < (Operator.binary op').level := by
  cases op' <;> exact Nat.zero_lt_succ _

/-- The level of the outermost operator. An expression without one binds tighter than any operator. -/
def Expr.level : Expr → Nat
  | .binary _ op _ _ => (Operator.binary op).level
  | .assign _ op _ _ => (Operator.assign op).level
  | _ => 6

/-- The operands and operators of a tree from left to right. -/
inductive Expr.InOrder : Expr → List Piece → Prop where
  | name (span : Span) (text : String) : InOrder (.identifier span text) [.atom (.name text)]
  | number (span : Span) (value : Int64) : InOrder (.integer span value) [.atom (.number value)]
  | binary (span : Span) {op : BinaryOp} {left right : Expr} {xs ys : List Piece}
      (hleft : InOrder left xs) (hright : InOrder right ys) :
      InOrder (.binary span op left right) (xs ++ .operator (.binary op) :: ys)
  | assign (span : Span) {op : AssignOp} {target value : Expr} {xs ys : List Piece}
      (htarget : InOrder target xs) (hvalue : InOrder value ys) :
      InOrder (.assign span op target value) (xs ++ .operator (.assign op) :: ys)

/-- On the left of a binary operator nothing binds more loosely than it, and on its right all binds
tighter. The target of an assignment is none; its value may be one. -/
def Expr.WellGrouped : Expr → Prop
  | .binary _ op left right =>
    (Operator.binary op).level ≤ left.level ∧ (Operator.binary op).level < right.level ∧
      left.WellGrouped ∧ right.WellGrouped
  | .assign _ op target value =>
    (Operator.assign op).level < target.level ∧ target.WellGrouped ∧ value.WellGrouped
  | _ => True

namespace Expr

/-- No operator in a tree binds more loosely than the outermost one. -/
theorem InOrder.level_le {e : Expr} {pieces : List Piece} (h : e.InOrder pieces)
    (hgrouped : e.WellGrouped) {o : Operator} (ho : .operator o ∈ pieces) : e.level ≤ o.level := by
  induction h with
  | name span text => simp at ho
  | number span value => simp at ho
  | binary span hleft hright ihleft ihright =>
    obtain ⟨hle, hlt, hgleft, hgright⟩ := hgrouped
    rw [List.mem_append, List.mem_cons] at ho
    rcases ho with ho | ho | ho
    · exact Nat.le_trans hle (ihleft hgleft ho)
    · cases ho
      exact Nat.le_refl _
    · exact Nat.le_trans (Nat.le_of_lt hlt) (ihright hgright ho)
  | assign span htarget hvalue _ _ => exact Nat.zero_le _

/-- An operator that binds more loosely than all of a tree is not in it. -/
theorem InOrder.not_mem {e : Expr} {pieces : List Piece} (h : e.InOrder pieces)
    (hgrouped : e.WellGrouped) {o : Operator} (ho : o.level < e.level) : .operator o ∉ pieces := by
  intro hmem
  have hle := h.level_le hgrouped hmem
  omega

/-- Where two splits of a list differ, the element at which the one splits lies on a side of the
other. -/
theorem split_cases {xs ys xs' ys' : List Piece} {x x' : Piece}
    (h : xs ++ x :: ys = xs' ++ x' :: ys') :
    xs = xs' ∧ x = x' ∧ ys = ys' ∨ x ∈ xs' ∧ x' ∈ ys ∨ x' ∈ xs ∧ x ∈ ys' := by
  rw [List.append_eq_append_iff] at h
  rcases h with ⟨between, rfl, h⟩ | ⟨between, rfl, h⟩
  · cases between with
    | nil =>
      simp only [List.nil_append, List.cons.injEq] at h
      exact .inl ⟨(List.append_nil xs).symm, h⟩
    | cons y between =>
      simp only [List.cons_append, List.cons.injEq] at h
      obtain ⟨rfl, rfl⟩ := h
      exact .inr (.inl ⟨by simp, by simp⟩)
  · cases between with
    | nil =>
      simp only [List.nil_append, List.cons.injEq] at h
      exact .inl ⟨List.append_nil xs', h.1.symm, h.2.symm⟩
    | cons y between =>
      simp only [List.cons_append, List.cons.injEq] at h
      obtain ⟨rfl, rfl⟩ := h
      exact .inr (.inr ⟨by simp, by simp⟩)

theorem split_ne_atom {xs ys : List Piece} {o : Operator} {a : Atom} :
    xs ++ .operator o :: ys ≠ [.atom a] := by
  intro h
  have hmem : Piece.operator o ∈ [Piece.atom a] := h ▸ by simp
  simp at hmem

theorem InOrder.bare_of_atom {e : Expr} {a : Atom} (h : e.InOrder [.atom a]) : e.bare = a.expr := by
  generalize hpieces : [Piece.atom a] = pieces at h
  cases h with
  | name | number =>
    cases hpieces
    rfl
  | binary | assign => exact absurd hpieces.symm split_ne_atom

/-- A sequence has at most one well-grouped tree, up to spans: its outermost operator is the first
assignment, or else the last one of the loosest level. -/
theorem InOrder.unique {e e' : Expr} {pieces : List Piece} (h : e.InOrder pieces)
    (h' : e'.InOrder pieces) (hgrouped : e.WellGrouped) (hgrouped' : e'.WellGrouped) :
    e'.bare = e.bare := by
  induction h generalizing e' with
  | name span text => rw [h'.bare_of_atom, Atom.expr, Expr.bare]
  | number span value => rw [h'.bare_of_atom, Atom.expr, Expr.bare]
  | @binary span op left right xs ys hleft hright ihleft ihright =>
    have hfirst : ∀ {o}, .operator o ∈ xs ++ Piece.operator (.binary op) :: ys →
        (Operator.binary op).level ≤ o.level := (InOrder.binary span hleft hright).level_le hgrouped
    have hsecond := h'.level_le hgrouped' (o := .binary op) (by simp)
    obtain ⟨hle, hlt, hgleft, hgright⟩ := hgrouped
    generalize hpieces : xs ++ Piece.operator (.binary op) :: ys = pieces at h' hfirst
    cases h' with
    | name | number => exact absurd hpieces split_ne_atom
    | @binary span' op' left' right' xs' ys' hleft' hright' =>
      -- both operators are of the loosest level, and the last ones of it
      obtain ⟨hle', hlt', hgleft', hgright'⟩ := hgrouped'
      have hlevel : (Operator.binary op).level ≤ (Operator.binary op').level := hfirst (by simp)
      change (Operator.binary op').level ≤ (Operator.binary op).level at hsecond
      rcases split_cases hpieces with ⟨rfl, hop, rfl⟩ | ⟨-, hmem⟩ | ⟨-, hmem⟩
      · cases hop
        rw [Expr.bare, Expr.bare, ihleft hleft' hgleft hgleft', ihright hright' hgright hgright']
      · exact absurd hmem (hright.not_mem hgright (by omega))
      · exact absurd hmem (hright'.not_mem hgright' (by omega))
    | @assign span' op' target value xs' ys' =>
      have hlevel : (Operator.binary op).level ≤ (Operator.assign op').level := hfirst (by simp)
      exact absurd hlevel (Nat.not_le_of_lt (Operator.level_assign_lt op' op))
  | @assign span op target value xs ys htarget hvalue ihtarget ihvalue =>
    obtain ⟨hlt, hgtarget, hgvalue⟩ := hgrouped
    have hsecond := h'.level_le hgrouped' (o := .assign op) (by simp)
    generalize hpieces : xs ++ Piece.operator (.assign op) :: ys = pieces at h'
    cases h' with
    | name | number => exact absurd hpieces split_ne_atom
    | @binary span' op' left right xs' ys' =>
      change (Operator.binary op').level ≤ (Operator.assign op).level at hsecond
      exact absurd hsecond (Nat.not_le_of_lt (Operator.level_assign_lt op op'))
    | @assign span' op' target' value' xs' ys' htarget' hvalue' =>
      -- both operators are the first assignment
      obtain ⟨hlt', hgtarget', hgvalue'⟩ := hgrouped'
      rcases split_cases hpieces with ⟨rfl, hop, rfl⟩ | ⟨hmem, -⟩ | ⟨hmem, -⟩
      · cases hop
        rw [Expr.bare, Expr.bare, ihtarget htarget' hgtarget hgtarget',
          ihvalue hvalue' hgvalue hgvalue']
      · exact absurd hmem (htarget'.not_mem hgtarget' hlt')
      · exact absurd hmem (htarget.not_mem hgtarget hlt)

end Expr

end Scripting
