import Scripting.Proofs.Account.Answering
import Scripting.Proofs.RoundTrip.Image

/-!
The leaves that blocks, functions and expressions take.
-/

namespace Scripting

/-- A grammar whose parsers take the leaves of the trees they give, and at least one token, wherever
fewer than `depth` tokens follow the next one. -/
structure Grammar.Accounts (tokens : List Token) (all : List Leaf) (depth : Nat) (g : Grammar) :
    Prop where
  expression : ∀ {bound : Nat} {taken : List Leaf} {c : Cursor},
    c.Stands tokens all (bound + 1) taken → bound < depth →
    Parser.Accounts tokens all bound taken c Expr.leaves g.expression
  operand : ∀ {bound : Nat} {taken : List Leaf} {c : Cursor},
    c.Stands tokens all (bound + 1) taken → bound < depth →
    Parser.Accounts tokens all bound taken c Expr.leaves g.operand
  statement : ∀ {bound : Nat} {taken : List Leaf} {c : Cursor},
    c.Stands tokens all (bound + 1) taken → bound < depth →
    Parser.Accounts tokens all bound taken c Stmt.leaves g.statement

namespace Parser

variable {tokens : List Token} {all taken : List Leaf} {bound depth limit : Nat} {g : Grammar}
  {c : Cursor}

/-- Where fewer tokens follow, it does not matter that one is taken. -/
theorem answers_within {α : Type} {leaves : α → List Leaf} {p : Parser α}
    (h : ∀ {bound : Nat} {taken : List Leaf} {c : Cursor}, c.Stands tokens all (bound + 1) taken →
      bound < depth → Accounts tokens all bound taken c leaves p)
    (hc : c.Stands tokens all bound taken) (hdepth : bound ≤ depth) :
    Accounts tokens all bound taken c leaves p := by
  cases bound with
  | zero => exact absurd hc.left (Nat.not_lt_zero _)
  | succ bound => exact (h hc hdepth).mono fun _ _ hd => hd.weaken

/-! Numbers, labels and parameters. -/

theorem answers_integerValue {token : Token} (htoken : token ∈ tokens) :
    Answers tokens c (fun n c' => c' = c ∧ Text.readLiteral? token.lexeme.toList = some n)
      (integerValue token) := by
  unfold integerValue
  split
  · rename_i n hn
    exact answers_pure ⟨rfl, hn⟩
  · exact answers_failAt htoken (by simp)

/-- The sign of a label is not part of its leaf. -/
theorem leaves_signed {text : List Char} {n : Int64} (h : Text.readLiteral? text = some n)
    (negative : Bool) :
    (CaseLabel.value (if negative then -n else n)).leaves = [.number (some n.toInt)] := by
  have hnonneg := Text.readLiteral?_nonneg h
  have hlt := n.toInt_lt
  have hminus : (-n).toInt = -n.toInt := by
    rw [Int64.toInt_neg]
    exact (Int.bmod_eq_iff (by decide)).2 ⟨by omega, by omega, by simp⟩
  have habs : (n.toInt.natAbs : Int) = n.toInt := by omega
  cases negative with
  | false => simp [CaseLabel.leaves, habs]
  | true => simp [CaseLabel.leaves, hminus, habs]

/-- The number of a label and the colon behind it. -/
theorem answers_labelValue {negative : Bool} (hc : c.Stands tokens all (bound + 1) taken) :
    Accounts tokens all bound taken c (fun label => Option.elim label [] CaseLabel.leaves) (do
      let token ← expect .number "Expected integer literal in 'case' label"
      let value ← integerValue token
      let _ ← expect .colon "Expected ':' after 'case' label"
      return some (CaseLabel.value (if negative then -value else value))) := by
  refine Answers.bind (answers_expectLeaf hc (by simp) (by simp)) fun t c₁ h => ?_
  obtain ⟨rfl, hkind, -, hc₁⟩ := h
  refine Answers.bind (answers_integerValue hc.next_mem) fun n c₂ h => ?_
  obtain ⟨rfl, hn⟩ := h
  rw [Token.leaves, hkind, hn] at hc₁
  refine answers_expect hc₁.weaken rfl (by simp) fun hc₂ => answers_pure ?_
  simpa only [Option.elim_some, leaves_signed hn, Option.map_some] using hc₂

theorem answers_caseLabel (hc : c.Stands tokens all bound taken) :
    Accounts tokens all bound taken c (fun label => label.elim [] CaseLabel.leaves) caseLabel := by
  refine answers_nextKind ?_
  split
  · refine answers_take hc.weaken (by simp [*]) fun hc₁ => ?_
    exact answers_expect hc₁.weaken rfl (by simp) fun hc₂ => accounts_pure hc₂ (by simp)
  · refine answers_take hc.weaken (by simp [*]) fun hc₁ => ?_
    refine answers_accept hc₁.weaken rfl (fun hc₂ => ?_) ?_
    · exact answers_labelValue hc₂.weaken
    · exact answers_labelValue hc₁.weaken
  · exact accounts_pure hc (by simp)

theorem answers_params (hc : c.Stands tokens all bound taken) (hlimit : bound ≤ limit) :
    Accounts tokens all bound taken c (·.map .name) (params limit) := by
  induction limit generalizing c taken bound with
  | zero => exact absurd hc.left (by omega)
  | succ limit ih =>
    obtain ⟨bound, rfl⟩ := hc.exists_bound
    refine Answers.bind (answers_expectName hc (by simp)) fun name c₁ hc₁ => ?_
    refine answers_accept hc₁.weaken rfl (fun hc₂ => ?_)
      (answers_expect hc₁.weaken rfl (by simp) fun hc₂ => ?_)
    · exact Answers.bind (ih hc₂ (by omega)) fun names c₃ hc₃ => accounts_pure hc₃.weaken (by simp)
    · exact answers_pure hc₂.weaken

theorem answers_paramList (hc : c.Stands tokens all bound taken) :
    Accounts tokens all bound taken c (·.map .name) paramList := by
  refine answers_accept hc.weaken rfl (accounts_pure · (by simp)) ?_
  · exact answers_bounded hc fun hc _ => answers_params hc (Nat.le_refl _)

/-! Blocks and functions. -/

theorem answers_label {β : Type} {R : β → Cursor → Prop} {labels : Bool}
    {f : Option CaseLabel → Parser β} (hc : c.Stands tokens all bound taken)
    (h : ∀ label c', c'.Stands tokens all bound (taken ++ Option.elim label [] CaseLabel.leaves) →
      Answers tokens c' R (f label)) :
    Answers tokens c R (if labels then caseLabel >>= f else pure none >>= f) := by
  cases labels with
  | true => exact Answers.bind (answers_caseLabel hc) h
  | false => exact h none c (by simpa using hc)

section

variable (G : g.Accounts tokens all depth) {start : Span}
include G

theorem answers_items {labels : Bool} (hc : c.Stands tokens all bound taken) (hdepth : bound ≤ depth)
    (hlimit : bound ≤ limit) :
    Accounts tokens all bound taken c Item.leavesAll (items g labels limit) := by
  induction limit generalizing c taken bound with
  | zero => exact absurd hc.left (by omega)
  | succ limit ih =>
    obtain ⟨bound, rfl⟩ := hc.exists_bound
    refine answers_skipSemicolons (answers_nextKind ?_)
    have hc := hc.skipSemicolons
    split
    · exact answers_take hc.weaken (by simp [*]) (accounts_pure · (by simp))
    · exact answers_failHere hc.next_mem (by simp)
    · refine answers_label hc fun label c₁ hc₁ => ?_
      refine Answers.bind (G.statement hc₁ hdepth) fun s c₂ hc₂ => ?_
      split
      · refine answers_nextKind ?_
        split
        · refine answers_take hc₂.weaken (by simp [*]) fun hc₃ => ?_
          refine Answers.bind (ih hc₃ (by omega) (by omega)) fun rest c₄ hc₄ => ?_
          exact accounts_pure hc₄.weaken (by simp)
        · exact answers_take hc₂.weaken (by simp [*]) fun hc₃ => accounts_pure hc₃.weaken (by simp)
        · exact answers_failHere hc₂.next_mem (by simp)
      · refine Answers.bind (ih hc₂ (by omega) (by omega)) fun rest c₃ hc₃ => ?_
        exact accounts_pure hc₃.weaken (by simp)

theorem answers_block {labels : Bool} (hc : c.Stands tokens all (bound + 1) taken)
    (hdepth : bound ≤ depth) : Accounts tokens all bound taken c Item.leavesAll (block g labels) :=
  answers_expect hc rfl (by simp) fun hc₁ => answers_bounded hc₁ fun hc₂ hleft =>
    answers_items G hc₂ (by omega) (Nat.le_refl _)

theorem answers_functionRest {name : Option String}
    (hc : c.Stands tokens all bound (taken ++ name.toList.map .name)) (hdepth : bound ≤ depth) :
    Accounts tokens all bound taken c FunctionDef.leaves (functionRest g name start) := by
  refine answers_expect hc.weaken rfl (by simp) fun hc₁ => ?_
  refine Answers.bind (answers_paramList hc₁) fun names c₂ hc₂ => ?_
  refine answers_nextKind ?_
  split
  · refine Answers.bind (answers_block G hc₂.weaken hdepth) fun body c₃ hc₃ => ?_
    exact accounts_node hc₃ (by simp)
  · exact answers_failHere hc₂.next_mem (by simp)

/-! Expressions. -/

theorem answers_argumentList (hc : c.Stands tokens all bound taken) (hdepth : bound ≤ depth)
    (hlimit : bound ≤ limit) :
    Accounts tokens all bound taken c Expr.leavesAll (argumentList g limit) := by
  induction limit generalizing c taken bound with
  | zero => exact absurd hc.left (by omega)
  | succ limit ih =>
    obtain ⟨bound, rfl⟩ := hc.exists_bound
    refine Answers.bind (G.expression hc hdepth) fun e c₁ hc₁ => ?_
    refine answers_accept hc₁.weaken rfl (fun hc₂ => ?_)
      (answers_expect hc₁.weaken rfl (by simp) fun hc₂ => ?_)
    · refine Answers.bind (ih hc₂ (by omega) (by omega)) fun es c₃ hc₃ => ?_
      exact accounts_pure hc₃.weaken (by simp)
    · exact accounts_pure hc₂.weaken (by simp)

theorem answers_arguments (hc : c.Stands tokens all bound taken) (hdepth : bound ≤ depth) :
    Accounts tokens all bound taken c Expr.leavesAll (arguments g) := by
  refine answers_accept hc.weaken rfl (accounts_pure · (by simp)) ?_
  · exact answers_bounded hc fun hc hleft => answers_argumentList G hc (by omega) (Nat.le_refl _)

theorem answers_parenthesized (hc : c.Stands tokens all bound taken) (hdepth : bound ≤ depth) :
    Accounts tokens all bound taken c Expr.leaves (parenthesized g start) := by
  refine Answers.bind (answers_within G.expression hc hdepth) fun e c₁ hc₁ => ?_
  refine answers_accept hc₁.weaken rfl (fun hc₂ => ?_) (answers_failHere hc₁.next_mem (by simp))
  refine answers_spanFrom fun span => answers_pure ?_
  rwa [Expr.leaves_withSpan]

omit G in
theorem answers_optionalName (hc : c.Stands tokens all bound taken) :
    Accounts tokens all bound taken c (·.toList.map .name) optionalName := by
  refine answers_nextKind ?_
  split
  · rename_i hkind
    have hc₁ := hc.weaken.advance (by simp [*])
    rw [Token.leaves, hkind] at hc₁
    exact answers_advance (answers_pure hc₁)
  · exact accounts_pure hc (by simp)

theorem answers_functionExpression (hc : c.Stands tokens all bound taken) (hdepth : bound ≤ depth) :
    Accounts tokens all bound taken c Expr.leaves (functionExpression g start) := by
  refine Answers.bind (answers_optionalName hc) fun name c₁ hc₁ => ?_
  refine Answers.bind (answers_functionRest G hc₁ hdepth).blame fun definition c₂ hc₂ => ?_
  refine answers_spanFrom fun span => answers_pure ?_
  rwa [Expr.leaves]

theorem answers_primary (hc : c.Stands tokens all (bound + 1) taken) (hdepth : bound ≤ depth) :
    Accounts tokens all bound taken c Expr.leaves (primary g) := by
  refine answers_peek ?_
  split
  · rename_i hkind
    refine Answers.bind (answers_integerValue hc.next_mem) fun n c' h => ?_
    obtain ⟨rfl, hn⟩ := h
    have hc₁ := hc.advance (by simp [*])
    rw [Token.leaves, hkind, hn] at hc₁
    exact answers_advance (accounts_pure hc₁ (by simp))
  · rename_i hkind
    have hc₁ := hc.advance (by simp [*])
    rw [Token.leaves, hkind] at hc₁
    exact answers_advance (accounts_pure hc₁ (by simp))
  · rename_i hkind
    have hc₁ := hc.advance (by simp [*])
    rw [Token.leaves, hkind] at hc₁
    exact answers_advance (accounts_pure hc₁ (by simp))
  · exact answers_take hc (by simp [*]) (answers_parenthesized G · hdepth)
  · exact answers_take hc (by simp [*]) (answers_functionExpression G · hdepth)
  · split
    · exact answers_take hc (by simp [*]) (accounts_pure · (by simp))
    · exact answers_failHere hc.next_mem (by simp)
  · refine answers_failHere hc.next_mem fun h => ?_
    simpa using congrArg (fun message => message.toList.head?) h
  · exact answers_failHere hc.next_mem (by simp)

omit G in
/-- A `.` in front of the cursor makes a leaf of the keyword behind it. -/
theorem answers_memberName {object : Expr}
    (hc : c.Stands tokens all (bound + 1) (taken ++ object.leaves))
    (hdot : c.next.kind = .dot) :
    Accounts tokens all bound taken c.advance Expr.leaves (memberName object) := by
  refine answers_peek ?_
  split
  · exact answers_advance (accounts_pure (hc.takeMember hdot (by simp [*])) (by simp))
  · exact answers_advance (accounts_pure (hc.takeMember hdot (by simp [*])) (by simp))
  · exact answers_failHere (hc.next_mem_afterDot hdot) (by simp)

theorem answers_postfixes {e : Expr} (hc : c.Stands tokens all bound (taken ++ e.leaves))
    (hdepth : bound ≤ depth + 1) (hlimit : bound ≤ limit) :
    Accounts tokens all bound taken c Expr.leaves (postfixes g start limit e) := by
  induction limit generalizing c e bound with
  | zero => exact absurd hc.left (by omega)
  | succ limit ih =>
    obtain ⟨bound, rfl⟩ := hc.exists_bound
    have hnext {c : Cursor} {e : Expr} (hc : c.Stands tokens all bound (taken ++ e.leaves)) :
        Accounts tokens all (bound + 1) taken c Expr.leaves (postfixes g start limit e) :=
      (ih hc (by omega) (by omega)).mono fun _ _ hd => hd.weaken
    refine answers_nextKind ?_
    split
    · rename_i hdot
      refine answers_advance (Answers.bind (answers_memberName hc hdot) fun access c₁ hc₁ => ?_)
      exact hnext hc₁
    · refine answers_take hc (by simp [*]) fun hc₁ => ?_
      refine Answers.bind (answers_arguments G hc₁ (by omega)).blame fun args c₂ hc₂ => ?_
      refine answers_spanFrom fun span => hnext ?_
      simpa [Expr.leaves] using hc₂
    · refine answers_take hc (by simp [*]) fun hc₁ => ?_
      refine Answers.bind (answers_within G.expression hc₁ (by omega)) fun index c₂ hc₂ => ?_
      refine answers_accept hc₂.weaken rfl (fun hc₃ => ?_) (answers_failHere hc₂.next_mem (by simp))
      refine answers_spanFrom fun span => hnext ?_
      simpa [Expr.leaves] using hc₃
    · refine answers_take hc (by simp [*]) fun hc₁ => answers_spanFrom fun span => hnext ?_
      simpa [Expr.leaves] using hc₁
    · refine answers_take hc (by simp [*]) fun hc₁ => answers_spanFrom fun span => hnext ?_
      simpa [Expr.leaves] using hc₁
    · exact answers_pure hc

theorem answers_withPostfixes {e : Expr} (hc : c.Stands tokens all bound (taken ++ e.leaves))
    (hdepth : bound ≤ depth + 1) :
    Accounts tokens all bound taken c Expr.leaves (withPostfixes g e) :=
  answers_bounded hc fun hc hleft => answers_postfixes G hc (by omega) (Nat.le_refl _)

omit G in
theorem answers_memberChain {e : Expr} (hc : c.Stands tokens all bound (taken ++ e.leaves))
    (hlimit : bound ≤ limit) :
    Accounts tokens all bound taken c Expr.leaves (memberChain limit e) := by
  induction limit generalizing c e bound with
  | zero => exact absurd hc.left (by omega)
  | succ limit ih =>
    obtain ⟨bound, rfl⟩ := hc.exists_bound
    refine answers_acceptKind (fun hdot => ?_) (answers_pure hc)
    refine Answers.bind (answers_memberName hc hdot) fun access c₁ hc₁ => ?_
    exact (ih hc₁ (by omega)).mono fun _ _ hd => hd.weaken

theorem answers_construction (hc : c.Stands tokens all bound taken) (hdepth : bound ≤ depth) :
    Accounts tokens all bound taken c Expr.leaves (construction g start) := by
  refine Answers.bind (answers_primary G hc.weaken hdepth) fun first c₁ hc₁ => ?_
  refine Answers.bind (answers_bounded hc₁ fun hc _ => answers_memberChain hc (Nat.le_refl _)) ?_
  intro callee c₂ hc₂
  refine answers_accept hc₂.weaken rfl (fun hc₃ => ?_) (answers_failHere hc₂.next_mem (by simp))
  refine Answers.bind (answers_arguments G hc₃ hdepth).blame fun args c₄ hc₄ => ?_
  refine answers_spanFrom fun span => answers_withPostfixes G ?_ (by omega)
  simpa [Expr.leaves] using hc₄

omit G in
theorem isSilent_of_prefixOp? {kind : TokenKind} {op : UnaryOp} (h : prefixOp? kind = some op) :
    kind.isSilent = true := by
  cases kind <;> first | rfl | cases h

theorem answers_unary (hc : c.Stands tokens all (bound + 1) taken) (hdepth : bound ≤ depth) :
    Accounts tokens all bound taken c Expr.leaves (unary g) := by
  refine answers_peek ?_
  split
  · rename_i op hop
    refine answers_take hc (isSilent_of_prefixOp? hop) fun hc₁ => ?_
    refine Answers.bind (answers_within G.operand hc₁ hdepth) fun operand c₂ hc₂ => ?_
    exact accounts_pure hc₂ (by simp)
  · split
    · exact answers_take hc (by simp [*]) (answers_construction G · hdepth)
    · exact Answers.bind (answers_primary G hc hdepth) fun first c₁ hc₁ =>
        answers_withPostfixes G hc₁ (by omega)

/-- The operators of a level are tokens without a leaf. -/
def Silent (op? : TokenKind → Option BinaryOp) : Prop :=
  ∀ kind op, op? kind = some op → kind.isSilent = true

omit G in
theorem silent_binaryLevels : ∀ op? ∈ binaryLevels, Silent op? := by
  intro op? hop? kind op h
  simp only [binaryLevels, List.mem_cons, List.not_mem_nil, or_false] at hop?
  obtain rfl | rfl | rfl | rfl | rfl := hop? <;> cases kind <;> first | rfl | cases h

omit G in
theorem isSilent_of_assignOp? {kind : TokenKind} {op : AssignOp} (h : assignOp? kind = some op) :
    kind.isSilent = true := by
  cases kind <;> first | rfl | cases h

omit G in
theorem answers_binaryRest {operand : Parser Expr} {op? : TokenKind → Option BinaryOp}
    (hop? : Silent op?)
    (hoperand : ∀ {bound : Nat} {taken : List Leaf} {c : Cursor},
      c.Stands tokens all (bound + 1) taken → bound ≤ depth →
      Accounts tokens all bound taken c Expr.leaves operand)
    {left : Expr} (hc : c.Stands tokens all bound (taken ++ left.leaves)) (hdepth : bound ≤ depth + 1)
    (hlimit : bound ≤ limit) :
    Accounts tokens all bound taken c Expr.leaves (binaryRest operand op? limit left) := by
  induction limit generalizing c left bound with
  | zero => exact absurd hc.left (by omega)
  | succ limit ih =>
    obtain ⟨bound, rfl⟩ := hc.exists_bound
    refine answers_nextKind ?_
    split
    · exact answers_pure hc
    · rename_i op hop
      refine answers_take hc (hop? _ _ hop) fun hc₁ => ?_
      refine Answers.bind (hoperand hc₁.weaken (by omega)) fun right c₂ hc₂ => ?_
      refine (ih ?_ (by omega) (by omega)).mono fun _ _ hd => hd.weaken
      simpa [Expr.leaves] using hc₂

omit G in
theorem answers_binaryLevels {levels : List (TokenKind → Option BinaryOp)} {operand : Parser Expr}
    (hlevels : ∀ op? ∈ levels, Silent op?)
    (hoperand : ∀ {bound : Nat} {taken : List Leaf} {c : Cursor},
      c.Stands tokens all (bound + 1) taken → bound ≤ depth →
      Accounts tokens all bound taken c Expr.leaves operand)
    (hc : c.Stands tokens all (bound + 1) taken) (hdepth : bound ≤ depth) :
    Accounts tokens all bound taken c Expr.leaves (levels.foldl binaryLevel operand) := by
  induction levels generalizing operand with
  | nil => exact hoperand hc hdepth
  | cons op? levels ih =>
    rw [List.forall_mem_cons] at hlevels
    refine ih hlevels.2 fun hc hdepth => ?_
    refine Answers.bind (hoperand hc hdepth) fun left c₁ hc₁ => ?_
    exact answers_bounded hc₁ fun hc hleft =>
      answers_binaryRest hlevels.1 hoperand hc (by omega) (Nat.le_refl _)

theorem answers_assignment (hc : c.Stands tokens all (bound + 1) taken) (hdepth : bound ≤ depth) :
    Accounts tokens all bound taken c Expr.leaves (assignment g) := by
  refine Answers.bind (answers_binaryLevels silent_binaryLevels (answers_unary G) hc hdepth) ?_
  intro target c₁ hc₁
  refine answers_nextKind ?_
  split
  · exact answers_pure hc₁
  · rename_i op hop
    refine answers_take hc₁.weaken (isSilent_of_assignOp? hop) fun hc₂ => ?_
    refine Answers.bind (answers_within G.expression hc₂ hdepth) fun value c₃ hc₃ => ?_
    exact accounts_pure hc₃ (by simp)

end

end Parser

end Scripting
