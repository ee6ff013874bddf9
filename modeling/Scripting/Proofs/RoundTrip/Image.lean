import Scripting.Proofs.RoundTrip.Yielding

/-!
What the parser makes: every node of a program that is read without errors satisfies `isRead`.
-/

namespace Scripting

variable {limit : Nat} {text : List Char}

/-- Every node of the expression is one that the parser makes. -/
def Expr.Read (e : Expr) : Prop :=
  e.every Expr.isRead Stmt.isRead = true

/-- Every node of the statement is one that the parser makes. -/
structure Stmt.Read (s : Stmt) : Prop where
  node : s.isRead = true
  inside : s.inside Expr.isRead Stmt.isRead = true

theorem Expr.Read.withSpan {e : Expr} (h : e.Read) (span : Span) : (e.withSpan span).Read := by
  cases e <;> exact h

theorem Expr.Read.of_parts {e : Expr} (hnode : e.isRead = true) (h : e.Parts Expr.Read Stmt.Read) :
    e.Read := by
  have hread (s : Stmt) : s.Read ↔ s.isRead = true ∧ s.inside Expr.isRead Stmt.isRead = true :=
    ⟨fun h => ⟨h.node, h.inside⟩, fun h => ⟨h.1, h.2⟩⟩
  cases e <;>
    simp_all [Expr.Parts, Expr.Read, Expr.every, Expr.everyAll_iff, FunctionDef.every_iff]

theorem Text.readLiteral?_nonneg {n : Int64} (h : Text.readLiteral? text = some n) :
    0 ≤ n.toInt := by
  unfold readLiteral? at h
  rw [Option.bind_eq_some_iff] at h
  obtain ⟨m, -, hm⟩ := h
  rw [int64?] at hm
  split at hm
  · rename_i hbounds
    rw [Option.some.injEq] at hm
    rw [← hm, Int64.toInt_ofInt_of_le (by omega) (by omega)]
    omega
  · cases hm

namespace Parser

variable {g : Grammar} {c : Cursor}

/-! Numbers, labels and parameters. -/

theorem yields_integerValue {token : Token} (hc : c.WellLexed) :
    Yields c (fun n _ => 0 ≤ n.toInt) (integerValue token) := by
  unfold integerValue
  split
  · rename_i n hn
    exact yields_pure hc (Text.readLiteral?_nonneg hn)
  · exact yields_failAt

theorem yields_caseLabel (hc : c.WellLexed) :
    Yields c (fun label _ => label.all CaseLabel.isRead = true) caseLabel := by
  refine yields_nextKind ?_
  split
  · refine yields_advance (yields_expect fun _ => ?_)
    exact yields_pure hc.advance.advance rfl
  · refine yields_advance (yields_accept (fun _ => ?_) ?_)
    · refine yields_expect fun _ => Yields.bind (yields_integerValue hc.advance.advance.advance) ?_
      intro n c' hc' hn
      have hlt := n.toInt_lt
      have hminus : (-n).toInt = -n.toInt := by
        rw [Int64.toInt_neg]
        exact (Int.bmod_eq_iff (by decide)).2 ⟨by omega, by omega, by simp⟩
      refine yields_expect fun _ => yields_pure hc'.advance ?_
      simp only [Option.all_some, CaseLabel.isRead, if_true, hminus, decide_eq_true_eq]
      omega
    · refine yields_expect fun _ => Yields.bind (yields_integerValue hc.advance.advance) ?_
      intro n c' hc' hn
      refine yields_expect fun _ => yields_pure hc'.advance ?_
      simp only [Option.all_some, CaseLabel.isRead, Bool.false_eq_true, if_false, decide_eq_true_eq]
      omega
  · exact yields_pure hc rfl

theorem yields_params (hc : c.WellLexed) :
    Yields c (fun names _ => ∀ name ∈ names, isName name = true) (params limit) := by
  induction limit generalizing c with
  | zero => exact yields_exhausted
  | succ limit ih =>
    refine Yields.bind (yields_expectName hc) fun name c' hc' hname => ?_
    refine yields_accept (fun _ => ?_) (yields_expect fun _ => ?_)
    · refine Yields.bind (ih hc'.advance) fun names c'' hc'' hnames => ?_
      exact yields_pure hc'' (List.forall_mem_cons.2 ⟨hname, hnames⟩)
    · exact yields_pure hc'.advance (by simpa using hname)

theorem yields_paramList (hc : c.WellLexed) :
    Yields c (fun names _ => ∀ name ∈ names, isName name = true) paramList :=
  yields_accept (fun _ => yields_pure hc.advance (by simp))
    (yields_bounded fun _ => yields_params hc)

end Parser

/-- No `else` follows the statement that an `if` at its end would have taken. -/
def Stmt.ClosedAt (s : Stmt) (c : Cursor) : Prop :=
  s.endsOpen = true → Parser.acceptElse s c = .ok false c

theorem Stmt.closedAt {s : Stmt} (h : s.endsOpen = false) (c : Cursor) : s.ClosedAt c := by
  intro hopen
  rw [h] at hopen
  cases hopen

abbrev Parser.ReadsExpr (c : Cursor) (p : Parser Expr) : Prop :=
  Yields c (fun e _ => e.Read) p

abbrev Parser.ReadsStmt (c : Cursor) (p : Parser Stmt) : Prop :=
  Yields c (fun s c' => s.Read ∧ s.ClosedAt c') p

/-- A grammar all of whose trees have only nodes that the parser makes. -/
structure Grammar.Reads (g : Grammar) : Prop where
  expression : ∀ {c : Cursor}, c.WellLexed → Parser.ReadsExpr c g.expression
  operand : ∀ {c : Cursor}, c.WellLexed → Parser.ReadsExpr c g.operand
  statement : ∀ {c : Cursor}, c.WellLexed → Parser.ReadsStmt c g.statement

namespace Parser

variable {g : Grammar} (G : g.Reads) {c : Cursor}

/-! Blocks and functions. -/

/-- Holds for the items of a block; in a block other than a `switch` body no item has a label. -/
def ItemsRead (labels : Bool) (items : List Item) : Prop :=
  ∀ item ∈ items, item.statement.Read ∧ item.label.all CaseLabel.isRead = true ∧
    (labels = false → item.label = none)

theorem itemsRead_cons {labels : Bool} {label : Option CaseLabel} {s : Stmt} {items : List Item}
    (hs : s.Read) (hlabel : label.all CaseLabel.isRead = true)
    (hnone : labels = false → label = none) (hitems : ItemsRead labels items) :
    ItemsRead labels (.mk label s :: items) :=
  List.forall_mem_cons.2 ⟨⟨hs, hlabel, hnone⟩, hitems⟩

theorem yields_label {β : Type} {R : β → Cursor → Prop} {labels : Bool}
    {f : Option CaseLabel → Parser β} (hc : c.WellLexed)
    (h : ∀ label c', c'.WellLexed → label.all CaseLabel.isRead = true →
      (labels = false → label = none) → Yields c' R (f label)) :
    Yields c R (if labels then caseLabel >>= f else pure none >>= f) := by
  cases labels with
  | true =>
    refine Yields.bind (yields_caseLabel hc) fun label c' hc' hlabel => ?_
    exact h label c' hc' hlabel (fun h => nomatch h)
  | false => exact h none c hc rfl fun _ => rfl

section

variable {start : Span}
include G

theorem yields_items {labels : Bool} (hc : c.WellLexed) :
    Yields c (fun items _ => ItemsRead labels items) (items g labels limit) := by
  induction limit generalizing c with
  | zero => exact yields_exhausted
  | succ limit ih =>
    refine yields_skipSemicolons (yields_nextKind ?_)
    have hc := hc.skipSemicolons
    split
    · exact yields_advance (yields_pure hc.advance (by simp [ItemsRead]))
    · exact yields_failHere
    · refine yields_label hc fun label c' hc' hlabel hnone => ?_
      refine Yields.bind (G.statement hc') fun s c'' hc'' hs => ?_
      split
      · refine yields_nextKind ?_
        split
        · refine yields_advance (Yields.bind (ih hc''.advance) fun rest c₃ hc₃ hrest => ?_)
          exact yields_pure hc₃ (itemsRead_cons hs.1 hlabel hnone hrest)
        · refine yields_advance (yields_pure hc''.advance ?_)
          exact itemsRead_cons hs.1 hlabel hnone (by simp [ItemsRead])
        · exact yields_failHere
      · refine Yields.bind (ih hc'') fun rest c₃ hc₃ hrest => ?_
        exact yields_pure hc₃ (itemsRead_cons hs.1 hlabel hnone hrest)

theorem yields_block {labels : Bool} (hc : c.WellLexed) :
    Yields c (fun items _ => ItemsRead labels items) (block g labels) :=
  yields_expect fun _ => yields_bounded fun _ => yields_items G hc.advance

theorem yields_functionRest {name : Option String} (hc : c.WellLexed)
    (hname : name.all isName = true) :
    Yields c (fun definition _ => definition.isRead = true ∧ definition.name = name ∧
      definition.every Expr.isRead Stmt.isRead = true) (functionRest g name start) := by
  refine yields_expect fun _ => Yields.bind (yields_paramList hc.advance) ?_
  intro names c' hc' hnames
  refine yields_nextKind ?_
  split
  · refine Yields.bind (yields_block G hc') fun body c'' hc'' hbody => ?_
    refine yields_spanFrom fun span => yields_pure hc'' ⟨?_, rfl, ?_⟩
    · simp only [FunctionDef.isRead, FunctionDef.name, FunctionDef.params, FunctionDef.body, hname,
        Bool.true_and, Bool.and_eq_true, List.all_eq_true, Option.isNone_iff_eq_none]
      exact ⟨hnames, fun item hitem => (hbody item hitem).2.2 rfl⟩
    · rw [FunctionDef.every, Item.everyAll_iff]
      exact fun item hitem => ⟨(hbody item hitem).1.node, (hbody item hitem).1.inside⟩
  · exact yields_failHere

/-! Expressions. -/

theorem yields_argumentList (hc : c.WellLexed) :
    Yields c (fun es _ => ∀ e ∈ es, Expr.Read e) (argumentList g limit) := by
  induction limit generalizing c with
  | zero => exact yields_exhausted
  | succ limit ih =>
    refine Yields.bind (G.expression hc) fun e c' hc' he => ?_
    refine yields_accept (fun _ => ?_) (yields_expect fun _ => ?_)
    · refine Yields.bind (ih hc'.advance) fun es c'' hc'' hes => ?_
      exact yields_pure hc'' (List.forall_mem_cons.2 ⟨he, hes⟩)
    · exact yields_pure hc'.advance (by simpa using he)

theorem yields_arguments (hc : c.WellLexed) :
    Yields c (fun es _ => ∀ e ∈ es, Expr.Read e) (arguments g) :=
  yields_accept (fun _ => yields_pure hc.advance (by simp))
    (yields_bounded fun _ => yields_argumentList G hc)

theorem yields_parenthesized (hc : c.WellLexed) : ReadsExpr c (parenthesized g start) := by
  refine Yields.bind (G.expression hc) fun e c' hc' he => ?_
  refine yields_accept (fun _ => ?_) yields_failHere
  exact yields_spanFrom fun span => yields_pure hc'.advance (he.withSpan span)

theorem yields_functionExpression (hc : c.WellLexed) :
    ReadsExpr c (functionExpression g start) := by
  have hname : Yields c (fun name _ => name.all isName = true) optionalName := by
    refine yields_nextKind ?_
    split
    · exact yields_advance (yields_pure hc.advance (hc.next.name ‹_›))
    · exact yields_pure hc rfl
  refine Yields.bind hname fun name c' hc' hname => ?_
  refine Yields.bind (yields_functionRest G hc' hname).blame fun definition c'' hc'' h => ?_
  refine yields_spanFrom fun span => yields_pure hc'' ?_
  simp [Expr.Read, Expr.every, Expr.isRead, h]

theorem yields_primary (hc : c.WellLexed) : ReadsExpr c (primary g) := by
  refine yields_peek ?_
  split
  · refine Yields.bind (yields_integerValue hc) fun n c' hc' hn => ?_
    refine yields_advance (yields_pure hc'.advance ?_)
    simpa [Expr.Read, Expr.every, Expr.isRead] using hn
  · exact yields_advance (yields_pure hc.advance rfl)
  · exact yields_advance (yields_pure hc.advance (hc.next.name ‹_›))
  · exact yields_advance (yields_parenthesized G hc.advance)
  · exact yields_advance (yields_functionExpression G hc.advance)
  · split
    · exact yields_advance (yields_pure hc.advance rfl)
    · exact yields_failHere
  · exact yields_failHere
  · exact yields_failHere

omit G in
theorem yields_memberName {object : Expr} (hc : c.WellLexed) (hobject : object.Read) :
    ReadsExpr c (memberName object) := by
  refine yields_peek ?_
  have hmember : Lexeme.isWord c.next.lexeme.toList = true → ReadsExpr c (do
      let _ ← advance
      return Expr.member (object.span.join c.next.span) object c.next.lexeme) := by
    intro hword
    exact yields_advance (yields_pure hc.advance (.of_parts hword hobject))
  split
  · exact hmember (hc.next.isWord ‹_›)
  · exact hmember (hc.next.word _ ‹_›)
  · exact yields_failHere

theorem yields_postfixes {e : Expr} (hc : c.WellLexed) (he : e.Read) :
    ReadsExpr c (postfixes g start limit e) := by
  induction limit generalizing c e with
  | zero => exact yields_exhausted
  | succ limit ih =>
    refine yields_nextKind ?_
    split
    · refine yields_advance (Yields.bind (yields_memberName hc.advance he) ?_)
      exact fun access c' hc' haccess => ih hc' haccess
    · refine yields_advance (Yields.bind (yields_arguments G hc.advance).blame ?_)
      intro args c' hc' hargs
      exact yields_spanFrom fun span => ih hc' (.of_parts rfl ⟨he, hargs⟩)
    · refine yields_advance (Yields.bind (G.expression hc.advance) fun index c' hc' hindex => ?_)
      refine yields_accept (fun _ => ?_) yields_failHere
      exact yields_spanFrom fun span => ih hc'.advance (.of_parts rfl ⟨he, hindex⟩)
    · exact yields_advance (yields_spanFrom fun span => ih hc.advance he)
    · exact yields_advance (yields_spanFrom fun span => ih hc.advance he)
    · exact yields_pure hc he

theorem yields_withPostfixes {e : Expr} (hc : c.WellLexed) (he : e.Read) :
    ReadsExpr c (withPostfixes g e) :=
  yields_bounded fun _ => yields_postfixes G hc he

omit G in
theorem yields_memberChain {e : Expr} (hc : c.WellLexed) (he : e.Read) :
    ReadsExpr c (memberChain limit e) := by
  induction limit generalizing c e with
  | zero => exact yields_exhausted
  | succ limit ih =>
    refine yields_accept (fun _ => ?_) (yields_pure hc he)
    refine Yields.bind (yields_memberName hc.advance he) fun access c' hc' haccess => ?_
    exact ih hc' haccess

theorem yields_construction (hc : c.WellLexed) : ReadsExpr c (construction g start) := by
  refine Yields.bind (yields_primary G hc) fun first c₁ hc₁ hfirst => ?_
  refine Yields.bind (yields_bounded fun _ => yields_memberChain hc₁ hfirst) ?_
  intro callee c₂ hc₂ hcallee
  refine yields_accept (fun _ => ?_) yields_failHere
  refine Yields.bind (yields_arguments G hc₂.advance).blame fun args c₃ hc₃ hargs => ?_
  refine yields_spanFrom fun span => yields_withPostfixes G hc₃ ?_
  exact .of_parts rfl ⟨hcallee, hargs⟩

theorem yields_unary (hc : c.WellLexed) : ReadsExpr c (unary g) := by
  refine yields_peek ?_
  split
  · refine yields_advance (Yields.bind (G.operand hc.advance) fun operand c' hc' hoperand => ?_)
    exact yields_pure hc' hoperand
  · split
    · exact yields_advance (yields_construction G hc.advance)
    · exact Yields.bind (yields_primary G hc) fun first c' hc' hfirst =>
        yields_withPostfixes G hc' hfirst

omit G in
theorem yields_binaryRest {operand : Parser Expr} {op? : TokenKind → Option BinaryOp}
    (hoperand : ∀ {c : Cursor}, c.WellLexed → ReadsExpr c operand) {left : Expr} (hc : c.WellLexed)
    (hleft : left.Read) : ReadsExpr c (binaryRest operand op? limit left) := by
  induction limit generalizing c left with
  | zero => exact yields_exhausted
  | succ limit ih =>
    refine yields_nextKind ?_
    split
    · exact yields_pure hc hleft
    · refine yields_advance (Yields.bind (hoperand hc.advance) fun right c' hc' hright => ?_)
      exact ih hc' (.of_parts rfl ⟨hleft, hright⟩)

omit G in
theorem yields_binaryLevels {levels : List (TokenKind → Option BinaryOp)} {operand : Parser Expr}
    (hoperand : ∀ {c : Cursor}, c.WellLexed → ReadsExpr c operand)
    (hc : c.WellLexed) : ReadsExpr c (levels.foldl binaryLevel operand) := by
  induction levels generalizing operand with
  | nil => exact hoperand hc
  | cons op? levels ih =>
    refine ih fun hc => ?_
    refine Yields.bind (hoperand hc) fun left c' hc' hleft => ?_
    exact yields_bounded fun _ => yields_binaryRest hoperand hc' hleft

theorem yields_assignment (hc : c.WellLexed) : ReadsExpr c (assignment g) := by
  refine Yields.bind (yields_binaryLevels (yields_unary G) hc) fun target c' hc' htarget => ?_
  refine yields_nextKind ?_
  split
  · exact yields_pure hc' htarget
  · refine yields_advance (Yields.bind (G.expression hc'.advance) fun value c'' hc'' hvalue => ?_)
    exact yields_pure hc'' (.of_parts rfl ⟨htarget, hvalue⟩)

/-! Statements. -/

theorem yields_condition {openMessage closeMessage : String} (hc : c.WellLexed) :
    ReadsExpr c (condition g openMessage closeMessage) := by
  refine yields_expect fun _ => Yields.bind (G.expression hc.advance) fun e c' hc' he => ?_
  exact yields_expect fun _ => yields_pure hc'.advance he

omit G in
theorem acceptElse_cases (s : Stmt) (hc : c.WellLexed) :
    acceptElse s c = .ok false c ∨ ∃ c', c'.WellLexed ∧ acceptElse s c = .ok true c' := by
  have haccept : ∀ {c : Cursor}, c.next.kind = .keyword .elseBranch →
      accept (.keyword .elseBranch) c = .ok true c.advance := fun hkind => by
    rw [accept, if_pos hkind]
  simp only [acceptElse, bind, andThen, nextKind, secondKind]
  generalize hfirst : c.next.kind = first
  generalize hsecond : (c.rest.head?.map Token.kind).getD .eof = second
  split
  · exact .inr ⟨_, hc.advance, haccept hfirst⟩
  · split
    · refine .inr ⟨_, hc.advance.advance, haccept ?_⟩
      exact Cursor.kind_next_advance (by simp [hfirst]) (by simp) hsecond
    · exact .inl rfl
  · exact .inl rfl

omit G in
theorem yields_acceptElse {s : Stmt} (hc : c.WellLexed) (hs : s.ClosedAt c) :
    Yields c (fun taken c' => if taken then s.endsOpen = false else
      acceptElse s c' = .ok false c') (acceptElse s) := by
  unfold Yields
  obtain hfalse | ⟨c', hc', htrue⟩ := acceptElse_cases s hc
  · rw [hfalse]
    exact ⟨hc, hfalse⟩
  · rw [htrue]
    refine ⟨hc', ?_⟩
    cases hopen : s.endsOpen with
    | false => rfl
    | true =>
      rw [hs hopen] at htrue
      cases htrue

theorem yields_elseBranch {s : Stmt} (hc : c.WellLexed) (hs : s.ClosedAt c) :
    Yields c (fun branch c' => match branch with
      | some other => s.endsOpen = false ∧ other.Read ∧ other.ClosedAt c'
      | none => acceptElse s c' = .ok false c') (elseBranch g s) := by
  refine Yields.bind (yields_acceptElse hc hs) fun taken c' hc' htaken => ?_
  cases taken with
  | false => exact yields_pure hc' htaken
  | true =>
    refine Yields.bind (G.statement hc') fun other c'' hc'' hother => ?_
    exact yields_pure hc'' ⟨htaken, hother⟩

theorem yields_ifStatement (hc : c.WellLexed) : ReadsStmt c (ifStatement g start) := by
  refine yields_advance (Yields.bind (yields_condition G hc.advance) ?_)
  intro condition c₁ hc₁ hcondition
  refine Yields.bind (G.statement hc₁) fun thenBranch c₂ hc₂ hthen => ?_
  refine Yields.bind (yields_elseBranch G hc₂ hthen.2) fun other c₃ hc₃ hother => ?_
  refine yields_spanFrom fun span => yields_pure hc₃ ?_
  rw [Expr.Read] at hcondition
  cases other with
  | none =>
    refine ⟨⟨rfl, ?_⟩, fun _ => ?_⟩
    · simp [Stmt.inside, hcondition, hthen.1.node, hthen.1.inside]
    · exact hother
  | some other =>
    obtain ⟨hclosed, hread, hends⟩ := hother
    refine ⟨⟨?_, ?_⟩, fun h => ?_⟩
    · rw [Stmt.isRead, hclosed]
      rfl
    · simp [Stmt.inside, hcondition, hthen.1.node, hthen.1.inside, hread.node, hread.inside]
    · exact hends h

theorem yields_whileStatement (hc : c.WellLexed) : ReadsStmt c (whileStatement g start) := by
  refine yields_advance (Yields.bind (yields_condition G hc.advance) ?_)
  intro condition c₁ hc₁ hcondition
  refine Yields.bind (G.statement hc₁) fun body c₂ hc₂ hbody => ?_
  refine yields_spanFrom fun span => yields_pure hc₂ ⟨⟨rfl, ?_⟩, hbody.2⟩
  rw [Expr.Read] at hcondition
  simp [Stmt.inside, hcondition, hbody.1.node, hbody.1.inside]

/-- The first clauses of a `for` are declarations and expressions. -/
theorem yields_declarationRest {kind : DeclarationKind} (hc : c.WellLexed) :
    Yields c (fun s c' => s.isClause = true ∧ s.Read ∧ s.ClosedAt c')
      (declarationRest g kind start) := by
  refine yields_advance (Yields.bind (yields_expectName hc.advance) fun name c₁ hc₁ hname => ?_)
  refine yields_nextKind ?_
  split
  case h_1 =>
    refine yields_advance (Yields.bind (G.expression hc₁.advance) fun init c₂ hc₂ hinit => ?_)
    have hclause : ∀ span, (Stmt.declare span kind name (some init)).isClause = true := by
      simp [Stmt.isClause, hname]
    exact yields_spanFrom fun span => yields_pure hc₂
      ⟨hclause span, ⟨hclause span, hinit⟩, Stmt.closedAt rfl _⟩
  case h_5 => exact yields_failHere
  -- the declaration ends here
  all_goals
    cases kind with
    | constDecl => exact yields_failHere
    | letDecl =>
      have hclause : ∀ span, (Stmt.declare span .letDecl name none).isClause = true := by
        simp [Stmt.isClause, hname]
      exact yields_spanFrom fun span =>
        yields_pure hc₁ ⟨hclause span, ⟨hclause span, rfl⟩, Stmt.closedAt rfl _⟩

theorem yields_expressionStatement (hc : c.WellLexed) :
    Yields c (fun s c' => s.isClause = true ∧ s.Read ∧ s.ClosedAt c') (expressionStatement g) := by
  refine Yields.bind (G.expression hc) fun e c' hc' he => yields_pure hc' ?_
  exact ⟨rfl, ⟨rfl, he⟩, Stmt.closedAt rfl _⟩

theorem yields_forInit (hc : c.WellLexed) :
    Yields c (fun init _ => init.all Stmt.isClause = true ∧
      init.all (·.inside Expr.isRead Stmt.isRead) = true) (forInit g) := by
  refine yields_location fun start => yields_nextKind ?_
  split
  · exact yields_advance (yields_pure hc.advance ⟨rfl, rfl⟩)
  · dsimp only
    split
    case' h_1 => refine Yields.bind (yields_declarationRest G hc) ?_
    case' h_2 => refine Yields.bind (yields_declarationRest G hc) ?_
    case' h_3 => refine Yields.bind (yields_expressionStatement G hc) ?_
    -- each of them ends with a `;`
    all_goals
      intro s c' hc' hs
      exact yields_expect fun _ => yields_pure hc'.advance ⟨hs.1, hs.2.1.inside⟩

theorem yields_forClause {close : TokenKind} {message : String} (hc : c.WellLexed) :
    Yields c (fun e _ => e.all (·.every Expr.isRead Stmt.isRead) = true)
      (forClause g close message) := by
  refine yields_accept (fun _ => yields_pure hc.advance rfl) ?_
  refine Yields.bind (G.expression hc) fun e c' hc' he => ?_
  exact yields_expect fun _ => yields_pure hc'.advance he

theorem yields_forStatement (hc : c.WellLexed) : ReadsStmt c (forStatement g start) := by
  refine yields_advance (yields_expect fun _ => ?_)
  refine Yields.bind (yields_forInit G hc.advance.advance) fun init c₁ hc₁ hinit => ?_
  refine Yields.bind (yields_forClause G hc₁) fun condition c₂ hc₂ hcondition => ?_
  refine Yields.bind (yields_forClause G hc₂) fun update c₃ hc₃ hupdate => ?_
  refine Yields.bind (G.statement hc₃) fun body c₄ hc₄ hbody => ?_
  refine yields_spanFrom fun span => yields_pure hc₄ ⟨⟨hinit.1, ?_⟩, hbody.2⟩
  simp only [Stmt.inside_forLoop, hinit.2, hcondition, hupdate, hbody.1.node, hbody.1.inside,
    Bool.and_self]

theorem yields_switchStatement (hc : c.WellLexed) : ReadsStmt c (switchStatement g start) := by
  refine yields_advance (Yields.bind (yields_condition G hc.advance) ?_)
  intro subject c₁ hc₁ hsubject
  refine yields_nextKind ?_
  split
  · refine Yields.bind (yields_block G hc₁) fun items c₂ hc₂ hitems => ?_
    refine yields_spanFrom fun span => yields_pure hc₂ ⟨⟨?_, ?_⟩, Stmt.closedAt rfl _⟩
    · rw [Stmt.isRead, List.all_eq_true]
      exact fun item hitem => (hitems item hitem).2.1
    · rw [Expr.Read] at hsubject
      rw [Stmt.inside, hsubject, Bool.true_and, Item.everyAll_iff]
      exact fun item hitem => ⟨(hitems item hitem).1.node, (hitems item hitem).1.inside⟩
  · exact yields_failHere

omit G in
/-- A `;` that may be left out. -/
theorem yields_optionalSemicolon {Q : Stmt → Cursor → Prop} {needed : Bool} {p : Parser Stmt}
    (hc : c.WellLexed) (hp : ∀ c', c'.WellLexed → Yields c' Q p) :
    Yields c Q (if needed then accept .semicolon >>= fun _ => p else p) := by
  split
  · exact yields_accept (fun _ => hp _ hc.advance) (hp c hc)
  · exact hp c hc

theorem yields_tryStatement (hc : c.WellLexed) : ReadsStmt c (tryStatement g start) := by
  refine yields_advance (Yields.bind (G.statement hc.advance) fun body c₁ hc₁ hbody => ?_)
  refine yields_optionalSemicolon hc₁ fun c₂ hc₂ => ?_
  refine yields_expect fun _ => yields_expect fun _ => ?_
  refine Yields.bind (yields_expectName hc₂.advance.advance) fun binding c₃ hc₃ hbinding => ?_
  refine yields_expect fun _ => ?_
  refine Yields.bind (G.statement hc₃.advance) fun handler c₄ hc₄ hhandler => ?_
  refine yields_spanFrom fun span => yields_pure hc₄ ⟨⟨hbinding, ?_⟩, hhandler.2⟩
  simp [Stmt.inside, hbody.1.node, hbody.1.inside, hhandler.1.node, hhandler.1.inside]

theorem yields_functionStatement (hc : c.WellLexed) (hname : isName c.advance.next.lexeme = true) :
    ReadsStmt c (functionStatement g start) := by
  refine yields_advance (yields_advance ?_)
  refine Yields.bind (yields_functionRest G hc.advance.advance hname) ?_
  intro definition c' hc' h
  refine yields_spanFrom fun span => yields_pure hc' ⟨⟨?_, h.2.2⟩, Stmt.closedAt rfl _⟩
  simp [Stmt.isRead, h.1, h.2.1]

theorem yields_statementOf (hc : c.WellLexed) : ReadsStmt c (statementOf g start) := by
  have hexpression : ReadsStmt c (expressionStatement g) :=
    (yields_expressionStatement G hc).mono fun _ _ h => h.2
  have hdeclaration : ∀ kind, ReadsStmt c
      (declarationRest g kind start) := fun kind =>
    (yields_declarationRest G hc).mono fun _ _ h => h.2
  refine yields_nextKind ?_
  split
  · refine Yields.bind (yields_block G hc) fun items c' hc' hitems => ?_
    refine yields_spanFrom fun span => yields_pure hc' ⟨⟨?_, ?_⟩, Stmt.closedAt rfl _⟩
    · simp only [Stmt.isRead, List.all_eq_true, Option.isNone_iff_eq_none]
      exact fun item hitem => (hitems item hitem).2.2 rfl
    · rw [Stmt.inside, Item.everyAll_iff]
      exact fun item hitem => ⟨(hitems item hitem).1.node, (hitems item hitem).1.inside⟩
  · exact yields_ifStatement G hc
  · exact yields_whileStatement G hc
  · exact yields_forStatement G hc
  · exact yields_switchStatement G hc
  · exact yields_tryStatement G hc
  · refine yields_advance (Yields.bind (G.expression hc.advance) fun value c' hc' hvalue => ?_)
    exact yields_spanFrom fun span => yields_pure hc' ⟨⟨rfl, hvalue⟩, Stmt.closedAt rfl _⟩
  · refine yields_advance (yields_nextKind ?_)
    split
    case h_4 =>
      refine Yields.bind (G.expression hc.advance) fun value c' hc' hvalue => ?_
      exact yields_spanFrom fun span => yields_pure hc' ⟨⟨rfl, hvalue⟩, Stmt.closedAt rfl _⟩
    all_goals exact yields_pure hc.advance ⟨⟨rfl, rfl⟩, Stmt.closedAt rfl _⟩
  · exact yields_advance (yields_pure hc.advance ⟨⟨rfl, rfl⟩, Stmt.closedAt rfl _⟩)
  · exact yields_advance (yields_pure hc.advance ⟨⟨rfl, rfl⟩, Stmt.closedAt rfl _⟩)
  · exact hdeclaration .letDecl
  · exact hdeclaration .constDecl
  · rename_i hkind
    refine yields_secondKind ?_
    split
    · rename_i hsecond
      refine yields_functionStatement G hc (hc.advance.next.name ?_)
      exact Cursor.kind_next_advance (by simp [hkind]) (by simp) hsecond
    · exact hexpression
  · exact hexpression

theorem yields_statement (hc : c.WellLexed) : ReadsStmt c (statement g) :=
  (yields_statementOf G hc).blame

end

end Parser

theorem Grammar.reads_ofDepth (n : Nat) : (Grammar.ofDepth n).Reads := by
  induction n with
  | zero =>
    exact ⟨fun _ => Parser.yields_exhausted, fun _ => Parser.yields_exhausted,
      fun _ => Parser.yields_exhausted⟩
  | succ n ih =>
    exact ⟨Parser.yields_assignment ih, Parser.yields_unary ih, Parser.yields_statement ih⟩

theorem Parser.read_programFrom {g : Grammar} (G : g.Reads) {c : Cursor} (hc : c.WellLexed)
    (herrors : (programFrom g limit c).1.errors = []) :
    ∀ s ∈ (programFrom g limit c).1.statements, s.Read := by
  induction limit generalizing c with
  | zero => simp [programFrom] at herrors
  | succ limit ih =>
    have hread := G.statement hc.skipSemicolons
    unfold Parser.ReadsStmt Parser.Yields at hread
    simp only [programFrom] at herrors ⊢
    by_cases heof : c.skipSemicolons.next.kind = .eof
    · simp [if_pos heof]
    simp only [if_neg heof] at herrors ⊢
    cases hs : g.statement c.skipSemicolons with
    | fail failure c' =>
      rw [hs] at hread
      simp only [hs] at herrors
      exact absurd herrors hread
    | ok s c' =>
      rw [hs] at hread
      simp only [hs] at herrors ⊢
      split at herrors
      · simp at herrors
      · rename_i hdone
        rw [if_neg hdone]
        exact List.forall_mem_cons.2 ⟨hread.2.1, ih hread.1 herrors⟩

/-! The tokens of a text. -/

theorem Lexeme.wellLexed_word {c : Char} (text : List Char) (start : Location)
    (hc : isWordStart c = true) : ((word c text).token start).WellLexed := by
  have hword : isWord (c :: text.takeWhile isWordPart) = true := by
    rw [isWord, hc, Bool.true_and]
    exact List.all_takeWhile
  refine ⟨fun hkind => ?_, fun keyword _ => ?_⟩
  · have hnone : Keyword.ofText? (String.ofList (c :: text.takeWhile isWordPart)) = none := by
      simp only [word, token, plain] at hkind
      cases hfind : Keyword.ofText? (String.ofList (c :: text.takeWhile isWordPart)) with
      | none => rfl
      | some keyword =>
        rw [hfind] at hkind
        cases hkind
    simp only [word, token, plain, isName, String.toList_ofList, hword, hnone, Option.isNone_none,
      Bool.and_self]
  · simpa [word, token, plain] using hword

/-- The kinds of the tokens that are not words, apart from the last one. -/
def TokenKind.isOther : TokenKind → Bool
  | .identifier | .keyword _ | .eof => false
  | _ => true

theorem Lexeme.wellLexed_of_isOther {piece : Lexeme} (start : Location)
    (h : piece.kind.isOther = true) : (piece.token start).WellLexed := by
  refine ⟨fun hkind => ?_, fun word hkind => ?_⟩
  · rw [show piece.kind = .identifier from hkind] at h
    cases h
  · rw [show piece.kind = .keyword word from hkind] at h
    cases h

theorem Lexeme.isOther_number (c : Char) (text : List Char) :
    (number c text).kind.isOther = true := by
  unfold number
  split <;> rfl

theorem Lexeme.isOther_operator (c : Char) (text : List Char) :
    (operator c text).kind.isOther = true := by
  have hsingle : (single c).isOther = true := by
    unfold single
    split <;> rfl
  unfold operator
  split
  · exact hsingle
  · split
    · rename_i next rest kind hpair
      change kind.isOther = true
      unfold pair? at hpair
      split at hpair <;> cases hpair <;> rfl
    · exact hsingle

theorem Lexeme.wellLexed_read? {c : Char} {piece : Lexeme} (start : Location)
    (h : Lexeme.read? c text = some piece) : (piece.token start).WellLexed := by
  unfold Lexeme.read? at h
  split at h
  · cases h
    exact wellLexed_word text start ‹_›
  split at h
  · cases h
    exact wellLexed_of_isOther start (isOther_number c text)
  split at h
  · unfold quoted? at h
    split at h
    · cases h
    · cases h
      exact wellLexed_of_isOther start rfl
  · cases h
    exact wellLexed_of_isOther start (isOther_operator c text)

theorem Lexeme.kind_ne_eof_of_read? {c : Char} {piece : Lexeme}
    (h : Lexeme.read? c text = some piece) : piece.kind ≠ .eof := by
  have hother {kind : TokenKind} (hkind : kind.isOther = true) : kind ≠ .eof := by
    rintro rfl
    cases hkind
  unfold Lexeme.read? at h
  split at h
  · cases h
    simp only [word, plain]
    split <;> simp
  split at h
  · cases h
    exact hother (isOther_number c text)
  split at h
  · unfold quoted? at h
    split at h
    · cases h
    · cases h
      simp
  · cases h
    exact hother (isOther_operator c text)

/-- What holds of the last token, and stays true with one more token in front, holds of the tokens of
a text. -/
theorem tokensFrom_induction {P : List Token → Prop} (hlast : ∀ p, P [.eof p])
    (hmore : ∀ {c text piece} (start : Location) {tokens}, Lexeme.read? c text = some piece →
      P tokens → P (piece.token start :: tokens)) {p : Location}
    {tokens : List Token} (h : tokensFrom limit p text = .ok tokens) : P tokens := by
  induction limit generalizing p text tokens with
  | zero =>
    cases h
    exact hlast p
  | succ limit ih =>
    simp only [tokensFrom] at h
    cases hrest : (splitGap false text).2 with
    | nil =>
      simp only [hrest] at h
      cases h
      exact hlast _
    | cons c behind =>
      simp only [hrest] at h
      cases hpiece : Lexeme.read? c behind with
      | none =>
        rw [hpiece] at h
        cases h
      | some piece =>
        simp only [hpiece] at h
        split at h
        · rename_i tokens' htokens
          cases h
          exact hmore _ hpiece (ih htokens)
        · cases h

theorem wellLexed_tokensFrom {p : Location} {tokens : List Token}
    (h : tokensFrom limit p text = .ok tokens) : ∀ t ∈ tokens, t.WellLexed := by
  apply tokensFrom_induction (P := fun tokens => ∀ t ∈ tokens, t.WellLexed) _ _ h
  · exact fun p => List.forall_mem_singleton.2 (Token.wellLexed_eof p)
  · intro c text piece start tokens hpiece htokens
    exact List.forall_mem_cons.2 ⟨Lexeme.wellLexed_read? start hpiece, htokens⟩

/-- Every statement of a program that is read without errors has only nodes that the parser makes. -/
theorem Program.read {source : String} {program : Program} (h : parseProgram source = .ok program)
    (herrors : program.errors = []) : ∀ s ∈ program.statements, s.Read := by
  unfold parseProgram at h
  split at h
  · rename_i tokens htokens
    cases h
    refine Parser.read_programFrom (Grammar.reads_ofDepth _) ?_ herrors
    have hlexed := wellLexed_tokensFrom htokens
    cases tokens with
    | nil => simpa [Cursor.ofTokens, Cursor.WellLexed] using Token.wellLexed_eof {}
    | cons t tokens => exact hlexed
  · cases h

end Scripting
