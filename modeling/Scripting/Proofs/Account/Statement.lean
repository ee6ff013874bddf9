import Scripting.Proofs.Account.Expression

/-!
The leaves that statements take, and what that says of the tokens of a whole text.
-/

namespace Scripting

namespace Parser

variable {tokens : List Token} {all taken : List Leaf} {bound depth : Nat} {g : Grammar} {c : Cursor}

section

variable (G : g.Accounts tokens all depth)
include G

theorem answers_condition {openMessage closeMessage : String} (hc : c.Stands tokens all bound taken)
    (hdepth : bound ≤ depth) (hopen : openMessage ≠ "Nesting too deep")
    (hclose : closeMessage ≠ "Nesting too deep") :
    Accounts tokens all bound taken c Expr.leaves (condition g openMessage closeMessage) := by
  refine answers_expect hc.weaken rfl hopen fun hc₁ => ?_
  refine Answers.bind (answers_within G.expression hc₁ hdepth) fun e c₂ hc₂ => ?_
  exact answers_expect hc₂.weaken rfl hclose fun hc₃ => answers_pure hc₃

omit G in
/-- An `else` takes the `;` in front of it along; neither has a leaf. -/
theorem answers_acceptElse {s : Stmt} (hc : c.Stands tokens all bound taken) :
    Answers tokens c (fun _ c' => c'.Stands tokens all bound taken) (acceptElse s) := by
  have haccept : ∀ {c : Cursor}, c.Stands tokens all bound taken →
      Answers tokens c (fun _ c' => c'.Stands tokens all bound taken)
        (accept (.keyword .elseBranch)) := by
    intro c hc
    unfold Answers accept
    split
    · exact ⟨Cursor.before_advance c, hc.weaken.take (by simp [*])⟩
    · exact ⟨.refl c, hc⟩
  refine answers_nextKind (answers_secondKind ?_)
  split
  · exact haccept hc
  · split
    · exact answers_take hc.weaken (by simp [*]) haccept
    · exact answers_pure hc
  · exact answers_pure hc

theorem answers_elseBranch {s : Stmt} (hc : c.Stands tokens all bound taken)
    (hdepth : bound ≤ depth) :
    Accounts tokens all bound taken c (·.elim [] Stmt.leaves) (elseBranch g s) := by
  refine Answers.bind (answers_acceptElse hc) fun found c₁ hc₁ => ?_
  cases found with
  | false => exact accounts_pure hc₁ (by simp)
  | true =>
    exact Answers.bind (answers_within G.statement hc₁ hdepth) fun branch c₂ hc₂ => answers_pure hc₂

omit G in
/-- An expression that is a statement starts where the statement starts. -/
theorem answers_expressionStatement
    (he : Accounts tokens all bound taken c Expr.leaves g.expression) :
    Accounts tokens all bound taken c Stmt.leaves (expressionStatement g) :=
  Answers.bind he fun e c₁ hc₁ => accounts_pure hc₁ (by simp)

theorem answers_forClause {close : TokenKind} {message : String} (hclose : close.isSilent = true)
    (hc : c.Stands tokens all bound taken) (hdepth : bound ≤ depth)
    (hmessage : message ≠ "Nesting too deep") :
    Accounts tokens all bound taken c (·.elim [] Expr.leaves) (forClause g close message) := by
  refine answers_accept hc.weaken hclose (fun hc₁ => ?_) ?_
  · exact accounts_pure hc₁ (by simp)
  · refine Answers.bind (answers_within G.expression hc hdepth) fun e c₁ hc₁ => ?_
    exact answers_expect hc₁.weaken hclose hmessage fun hc₂ => answers_pure hc₂

omit G in
/-- A `;` that may be left out. -/
theorem answers_optionalSemicolon {Q : Stmt → Cursor → Prop} {needed : Bool} {p : Parser Stmt}
    (hc : c.Stands tokens all bound taken)
    (hp : ∀ c', c'.Stands tokens all bound taken → Answers tokens c' Q p) :
    Answers tokens c Q (if needed then accept .semicolon >>= fun _ => p else p) := by
  split
  · exact answers_accept hc.weaken rfl (hp _) (hp c hc)
  · exact hp c hc

/-! Statements that start with a keyword. -/

section

variable {start : Span} (hc : c.Stands tokens all (bound + 1) taken) (hdepth : bound ≤ depth)
  (hkind : c.next.kind.isSilent = true)
include hc hdepth hkind

theorem answers_ifStatement :
    Accounts tokens all bound taken c Stmt.leaves (ifStatement g start) := by
  refine answers_take hc hkind fun hc₀ => ?_
  refine Answers.bind (answers_condition G hc₀ hdepth (by simp) (by simp)) fun test c₁ hc₁ => ?_
  refine Answers.bind (answers_within G.statement hc₁ hdepth) fun thenBranch c₂ hc₂ => ?_
  refine Answers.bind (answers_elseBranch G hc₂ hdepth) fun other c₃ hc₃ => ?_
  exact accounts_node hc₃ (by simp [Stmt.leaves_ifElse])

theorem answers_whileStatement :
    Accounts tokens all bound taken c Stmt.leaves (whileStatement g start) := by
  refine answers_take hc hkind fun hc₀ => ?_
  refine Answers.bind (answers_condition G hc₀ hdepth (by simp) (by simp)) fun test c₁ hc₁ => ?_
  refine Answers.bind (answers_within G.statement hc₁ hdepth) fun body c₂ hc₂ => ?_
  exact accounts_node hc₂ (by simp)

theorem answers_declarationRest {kind : DeclarationKind} :
    Accounts tokens all bound taken c Stmt.leaves (declarationRest g kind start) := by
  refine answers_take hc hkind fun hc₀ => ?_
  refine Answers.bind (answers_expectName hc₀.weaken (by simp)) fun name c₁ hc₁ => ?_
  refine answers_nextKind ?_
  split
  case h_1 hassign =>
    refine answers_take hc₁.weaken (by simp [*]) fun hc₂ => ?_
    refine Answers.bind (answers_within G.expression hc₂ hdepth) fun init c₃ hc₃ => ?_
    exact accounts_node hc₃ (by simp)
  case h_5 => exact answers_failHere hc₁.next_mem (by simp)
  -- the declaration ends here
  all_goals
    cases kind with
    | constDecl => exact answers_failHere hc₁.next_mem (by simp)
    | letDecl => exact accounts_node hc₁ (by simp)

omit hc hkind in
theorem answers_forInit (hc : c.Stands tokens all bound taken) :
    Accounts tokens all bound taken c (·.elim [] Stmt.leaves) (forInit g) := by
  refine answers_location fun start => answers_nextKind ?_
  split
  · exact answers_take hc.weaken (by simp [*]) (accounts_pure · (by simp))
  · dsimp only
    split
    case' h_1 => refine Answers.bind (answers_declarationRest G hc.weaken hdepth (by simp [*])) ?_
    case' h_2 => refine Answers.bind (answers_declarationRest G hc.weaken hdepth (by simp [*])) ?_
    case' h_3 =>
      refine Answers.bind (answers_expressionStatement (answers_within G.expression hc hdepth)) ?_
    -- each of them ends with a `;`
    all_goals exact fun s c₁ hc₁ =>
      answers_expect hc₁.weaken rfl (by simp) fun hc₂ => answers_pure hc₂

theorem answers_forStatement :
    Accounts tokens all bound taken c Stmt.leaves (forStatement g start) := by
  refine answers_take hc hkind fun hc₀ => answers_expect hc₀.weaken rfl (by simp) fun hc₁ => ?_
  refine Answers.bind (answers_forInit G hdepth hc₁) fun init c₂ hc₂ => ?_
  refine Answers.bind (answers_forClause G rfl hc₂ hdepth (by simp)) fun test c₃ hc₃ => ?_
  refine Answers.bind (answers_forClause G rfl hc₃ hdepth (by simp)) fun update c₄ hc₄ => ?_
  refine Answers.bind (answers_within G.statement hc₄ hdepth) fun body c₅ hc₅ => ?_
  exact accounts_node hc₅ (by simp [Stmt.leaves_forLoop])

theorem answers_switchStatement :
    Accounts tokens all bound taken c Stmt.leaves (switchStatement g start) := by
  refine answers_take hc hkind fun hc₀ => ?_
  refine Answers.bind (answers_condition G hc₀ hdepth (by simp) (by simp)) fun subject c₁ hc₁ => ?_
  refine answers_nextKind ?_
  split
  · refine Answers.bind (answers_block G hc₁.weaken hdepth) fun items c₂ hc₂ => ?_
    exact accounts_node hc₂ (by simp)
  · exact answers_failHere hc₁.next_mem (by simp)

theorem answers_tryStatement :
    Accounts tokens all bound taken c Stmt.leaves (tryStatement g start) := by
  refine answers_take hc hkind fun hc₀ => ?_
  refine Answers.bind (answers_within G.statement hc₀ hdepth) fun body c₁ hc₁ => ?_
  refine answers_optionalSemicolon hc₁ fun c₂ hc₂ => ?_
  refine answers_expect hc₂.weaken rfl (by simp) fun hc₃ => ?_
  refine answers_expect hc₃.weaken rfl (by simp) fun hc₄ => ?_
  refine Answers.bind (answers_expectName hc₄.weaken (by simp)) fun binding c₅ hc₅ => ?_
  refine answers_expect hc₅.weaken rfl (by simp) fun hc₆ => ?_
  refine Answers.bind (answers_within G.statement hc₆ hdepth) fun handler c₇ hc₇ => ?_
  exact accounts_node hc₇ (by simp)

theorem answers_throwStatement :
    Accounts tokens all bound taken c Stmt.leaves (throwStatement g start) := by
  refine answers_take hc hkind fun hc₀ => ?_
  refine Answers.bind (answers_within G.expression hc₀ hdepth) fun value c₁ hc₁ => ?_
  exact accounts_node hc₁ (by simp)

theorem answers_returnStatement :
    Accounts tokens all bound taken c Stmt.leaves (returnStatement g start) := by
  refine answers_take hc hkind fun hc₁ => answers_nextKind ?_
  split
  case h_4 =>
    refine Answers.bind (answers_within G.expression hc₁ hdepth) fun value c₂ hc₂ => ?_
    exact accounts_node hc₂ (by simp)
  all_goals exact accounts_pure hc₁ (by simp)

theorem answers_functionStatement (hname : c.advance.next.kind = .identifier) :
    Accounts tokens all bound taken c Stmt.leaves (functionStatement g start) := by
  have hc₁ := (hc.take hkind).weaken.advance (by simp [*])
  rw [Token.leaves, hname] at hc₁
  refine answers_advance (answers_advance ?_)
  refine Answers.bind (answers_functionRest G hc₁ hdepth) fun definition c₂ hc₂ => ?_
  exact accounts_node hc₂ (by simp)

end

/-- A statement may start with an expression, so the expression is read one level deeper where the
statement itself starts. -/
theorem answers_statement (hc : c.Stands tokens all (bound + 1) taken) (hdepth : bound ≤ depth)
    (he : Accounts tokens all bound taken c Expr.leaves g.expression) :
    Accounts tokens all bound taken c Stmt.leaves (statement g) := by
  have hexpression := answers_expressionStatement he
  change Answers tokens c _ (blame c.next.span (statementOf g c.next.span))
  refine Answers.blame (answers_nextKind ?_)
  split
  · refine Answers.bind (answers_block G hc hdepth) fun items c₁ hc₁ => ?_
    exact accounts_node hc₁ (by simp)
  · exact answers_ifStatement G hc hdepth (by simp [*])
  · exact answers_whileStatement G hc hdepth (by simp [*])
  · exact answers_forStatement G hc hdepth (by simp [*])
  · exact answers_switchStatement G hc hdepth (by simp [*])
  · exact answers_tryStatement G hc hdepth (by simp [*])
  · exact answers_throwStatement G hc hdepth (by simp [*])
  · exact answers_returnStatement G hc hdepth (by simp [*])
  · exact answers_take hc (by simp [*]) (accounts_pure · (by simp))
  · exact answers_take hc (by simp [*]) (accounts_pure · (by simp))
  · exact answers_declarationRest G hc hdepth (by simp [*])
  · exact answers_declarationRest G hc hdepth (by simp [*])
  · rename_i hkind
    refine answers_secondKind ?_
    split
    · rename_i hsecond
      apply answers_functionStatement G hc hdepth (by simp [*])
      exact Cursor.kind_next_advance (by simp [hkind]) (by simp) hsecond
    · exact hexpression
  · exact hexpression

end

end Parser

namespace Grammar

/-- Between two calls of an expression at least one token is taken, and between two calls of a
statement too; a statement calls an expression in front of the same token. -/
theorem accounts_ofDepth (tokens : List Token) (all : List Leaf) (n : Nat) :
    (ofDepth n).Accounts tokens all (n / 2) ∧
      ∀ {bound : Nat} {taken : List Leaf} {c : Cursor}, c.Stands tokens all (bound + 1) taken →
        2 * bound < n → Parser.Accounts tokens all bound taken c Expr.leaves (ofDepth n).expression := by
  induction n with
  | zero => exact ⟨⟨by omega, by omega, by omega⟩, by omega⟩
  | succ n ih =>
    obtain ⟨G, hexpression⟩ := ih
    refine ⟨⟨?_, ?_, ?_⟩, ?_⟩
    · exact fun hc hdepth => Parser.answers_assignment G hc (by omega)
    · exact fun hc hdepth => Parser.answers_unary G hc (by omega)
    · exact fun hc hdepth =>
        Parser.answers_statement G hc (by omega) (hexpression hc (by omega))
    · exact fun hc hdepth => Parser.answers_assignment G hc (by omega)

/-- The parsers of a grammar take at least one token wherever fewer than `bound` tokens follow the
next one. -/
structure Serves (bound : Nat) (g : Grammar) : Prop where
  expression : ∀ {c : Cursor}, c.Ends → c.left < bound → Parser.Proceeds c c.left g.expression
  operand : ∀ {c : Cursor}, c.Ends → c.left < bound → Parser.Proceeds c c.left g.operand
  statement : ∀ {c : Cursor}, c.Ends → c.left < bound → Parser.Proceeds c c.left g.statement

theorem serves_ofDepth (n : Nat) :
    (ofDepth n).Serves (n / 2) ∧
      ∀ {c : Cursor}, c.Ends → 2 * c.left < n → Parser.Proceeds c c.left (ofDepth n).expression := by
  have A (c : Cursor) := accounts_ofDepth (c.next :: c.rest) c.leaves n
  have hstands {c : Cursor} (hc : c.Ends) :
      c.Stands (c.next :: c.rest) c.leaves (c.left + 1) [] :=
    ⟨List.suffix_rfl, hc, rfl, Nat.lt_succ_self _⟩
  refine ⟨⟨?_, ?_, ?_⟩, ?_⟩
  · exact fun hc hleft => ((A _).1.expression (hstands hc) hleft).proceeds fun _ _ hd => hd.left
  · exact fun hc hleft => ((A _).1.operand (hstands hc) hleft).proceeds fun _ _ hd => hd.left
  · exact fun hc hleft => ((A _).1.statement (hstands hc) hleft).proceeds fun _ _ hd => hd.left
  · exact fun hc hleft => ((A _).2 (hstands hc) hleft).proceeds fun _ _ hd => hd.left

end Grammar

/-! The tokens of a text. -/

theorem Token.EndsOnce.cons {t : Token} {tokens : List Token} (ht : t.kind ≠ .eof)
    (h : EndsOnce tokens) : EndsOnce (t :: tokens) := by
  cases tokens with
  | nil => exact h.elim
  | cons u rest => exact ⟨ht, h⟩

theorem endsOnce_tokensFrom {limit : Nat} {p : Location} {text : List Char} {tokens : List Token}
    (h : tokensFrom limit p text = .ok tokens) : Token.EndsOnce tokens :=
  tokensFrom_induction (fun _ => rfl) (fun _ _ hpiece => .cons (Lexeme.kind_ne_eof_of_read? hpiece)) h

theorem Cursor.left_ofTokens {tokens : List Token} (h : Token.EndsOnce tokens) :
    (ofTokens tokens).left = tokens.length - 1 := by
  cases tokens with
  | nil => exact absurd h id
  | cons t rest => rfl

/-- In front of the first token nothing is taken. -/
theorem Cursor.stands_ofTokens {source : String} {tokens : List Token}
    (h : tokenize source = .ok tokens) :
    (Cursor.ofTokens tokens).Stands tokens (Token.leavesFrom false tokens) tokens.length [] := by
  have hends := endsOnce_tokensFrom h
  cases tokens with
  | nil => exact hends.elim
  | cons t rest =>
    constructor
    · exact List.suffix_rfl
    · exact hends
    · rfl
    · exact Nat.lt_succ_self _

/-- Nothing is behind the last token. -/
theorem Cursor.Stands.rest_of_eof {tokens : List Token} {all taken : List Leaf} {bound : Nat}
    {c : Cursor} (h : c.Stands tokens all bound taken) (heof : c.next.kind = .eof) :
    c.rest = [] := by
  have hends := h.ends
  cases hrest : c.rest with
  | nil => rfl
  | cons t rest =>
    rw [hrest] at hends
    exact absurd heof hends.1

end Scripting
