import Scripting.Proofs.RoundTrip.Expression

/-!
Statements are read back from their shapes, if the grammar one level deeper reads the trees in them
back.
-/

namespace Scripting

namespace Parser

variable {g : Grammar} {n : Nat} (G : g.Rebuilds n) {all rest more : List Shape} {t : Shape}

theorem takes_statement {Q : Stmt → Prop} (h : ∀ start, Takes all rest Q (statementOf g start)) :
    Takes all rest Q (statement g) :=
  fun c hc => (h c.next.span).blame c.next.span c hc

section

variable {start : Span}
include G

theorem takes_condition {e : Expr} {openMessage closeMessage : String} (he : e.Legible)
    (hn : e.shapes.length ≤ n) (hmore : more ≠ []) :
    Takes (.leftParen :: (e.shapes ++ .rightParen :: more)) more (·.bare = e.bare)
      (condition g openMessage closeMessage) := by
  refine takes_expected (t := .leftParen) rfl (by simp) ?_
  refine Takes.bind (G.expression he hn rfl) fun e' he' => ?_
  exact takes_expected (t := .rightParen) rfl hmore (takes_pure he')

theorem takes_expressionStatement {e : Expr} (he : e.Legible) (hn : e.shapes.length ≤ n)
    (ht : t.kind.closes = true) :
    Takes (e.shapes ++ t :: more) (t :: more) (·.bare = .expression {} e.bare)
      (expressionStatement g) :=
  Takes.bind (G.expression he hn ht) fun _ he' => takes_pure (by rw [Stmt.bare, he'])

theorem takes_statementOf_expression {e : Expr} (he : e.Legible) (hplain : e.startsNamed = false)
    (hn : e.shapes.length ≤ n) (ht : t.kind.closes = true) :
    Takes (e.shapes ++ t :: more) (t :: more) (·.bare = .expression {} e.bare)
      (statementOf g start) := by
  obtain ⟨u, tail, hshapes, hopens, hfunction⟩ := e.shapes_eq_cons he
  refine takes_nextKind u (by simp [hshapes]) ?_
  split
  case h_13 heq =>
    refine takes_secondKind ?_
    have hsecond : (e.shapes ++ t :: more)[1]? = some Shape.leftParen := by
      have hhead := hfunction hplain heq
      rw [hshapes]
      cases tail with
      | nil => cases hhead
      | cons v tail =>
        cases hhead
        rfl
    rw [hsecond]
    exact takes_expressionStatement G he hn ht
  case h_14 => exact takes_expressionStatement G he hn ht
  all_goals simp_all [TokenKind.opens, special?]

/-! The two branches of an `if`. -/

omit G in
theorem takes_acceptElse {s s' : Stmt} (hs : s'.requiresSemicolon = s.requiresSemicolon)
    (hmore : more ≠ []) :
    Takes (s.terminatorShapes ++ .keyword .elseBranch :: more) more (· = true)
      (acceptElse s') := by
  have htake : Takes (.keyword .elseBranch :: more) more (· = true)
      (accept (.keyword .elseBranch)) :=
    (takes_accept (t := .keyword .elseBranch) rfl hmore)
  unfold Stmt.terminatorShapes acceptElse
  rw [hs]
  split
  · refine takes_nextKind .semicolon rfl (takes_secondKind ?_)
    exact takes_past rfl (by simp) htake
  · exact takes_nextKind (.keyword .elseBranch) rfl (takes_secondKind htake)

omit G in
theorem takes_acceptElse_none {s s' : Stmt} (hs : s'.requiresSemicolon = s.requiresSemicolon)
    (hrest : rest ≠ [])
    (hnext : rest.head?.map Shape.kind ≠ some (.keyword .elseBranch))
    (hsecond : s.requiresSemicolon = true →
      rest[1]?.map Shape.kind ≠ some (.keyword .elseBranch)) :
    Takes rest rest (· = false) (acceptElse s') := by
  obtain ⟨t, more, rfl⟩ := List.exists_cons_of_ne_nil hrest
  refine takes_nextKind t rfl (takes_secondKind ?_)
  split
  · simp_all
  · rename_i heq
    rw [hs]
    split
    · rename_i hrequires
      refine absurd ?_ (hsecond hrequires)
      cases more with
      | nil => cases heq
      | cons u more => exact congrArg some heq
    · exact takes_pure rfl
  · exact takes_pure rfl

theorem takes_ifStatement_none {condition : Expr} {thenBranch : Stmt}
    (hcondition : condition.Legible) (hthen : thenBranch.Legible)
    (hn : condition.shapes.length + thenBranch.shapes.length < n) (hrest : rest ≠ [])
    (hends : (Stmt.ifElse {} condition thenBranch none).EndsBefore rest) :
    Takes (.keyword .ifElse :: .leftParen :: (condition.shapes ++ .rightParen ::
        (thenBranch.shapes ++ rest))) rest
      (·.bare = .ifElse {} condition.bare thenBranch.bare none) (ifStatement g start) := by
  obtain ⟨hsemicolon, hnoElse⟩ := hends
  obtain ⟨hnext, hsecond⟩ := hnoElse rfl
  rw [Stmt.requiresSemicolon] at hsemicolon hsecond
  refine takes_past rfl (by simp) ?_
  refine Takes.bind (takes_condition G hcondition (by omega) (by simp [hrest])) ?_
  intro condition' hcondition'
  refine Takes.bind (G.statement hthen (by omega) hrest
    ⟨hsemicolon, fun _ => ⟨hnext, hsecond⟩⟩) fun thenBranch' hthen' => ?_
  have hrequires : thenBranch'.requiresSemicolon = thenBranch.requiresSemicolon := by
    rw [← thenBranch'.requiresSemicolon_bare, hthen', thenBranch.requiresSemicolon_bare]
  have hother : Takes rest rest (· = none) (elseBranch g thenBranch') := by
    refine Takes.bind (takes_acceptElse_none hrequires hrest hnext hsecond) ?_
    rintro _ rfl
    exact takes_pure rfl
  refine Takes.bind hother ?_
  rintro _ rfl
  refine takes_spanFrom fun span => ?_
  exact takes_pure (by simp [Stmt.bare, hcondition', hthen'])

theorem takes_ifStatement_some {condition : Expr} {thenBranch other : Stmt}
    (hcondition : condition.Legible) (hthen : thenBranch.Legible)
    (hclosed : thenBranch.endsOpen = false) (hother : other.Legible)
    (hn : condition.shapes.length + thenBranch.shapes.length + other.shapes.length < n)
    (hrest : rest ≠ []) (hends : other.EndsBefore rest) :
    Takes (.keyword .ifElse :: .leftParen :: (condition.shapes ++ .rightParen ::
        (thenBranch.shapes ++ (thenBranch.terminatorShapes ++ .keyword .elseBranch ::
          (other.shapes ++ rest))))) rest
      (·.bare = .ifElse {} condition.bare thenBranch.bare (some other.bare))
      (ifStatement g start) := by
  refine takes_past rfl (by simp) ?_
  refine Takes.bind (takes_condition G hcondition (by omega) (by simp)) ?_
  intro condition' hcondition'
  have hthenEnds : thenBranch.EndsBefore (thenBranch.terminatorShapes ++
      .keyword .elseBranch :: (other.shapes ++ rest)) := by
    refine ⟨fun hrequires => ?_, fun hopen => ?_⟩
    · simp [Stmt.terminatorShapes, hrequires, Shape.semicolon]
    · rw [hclosed] at hopen
      cases hopen
  refine Takes.bind (G.statement hthen (by omega) (by simp) hthenEnds) fun thenBranch' hthen' => ?_
  have hrequires : thenBranch'.requiresSemicolon = thenBranch.requiresSemicolon := by
    rw [← thenBranch'.requiresSemicolon_bare, hthen', thenBranch.requiresSemicolon_bare]
  have hbranch : Takes (thenBranch.terminatorShapes ++ .keyword .elseBranch ::
      (other.shapes ++ rest)) rest (·.map Stmt.bare = some other.bare)
      (elseBranch g thenBranch') := by
    refine Takes.bind (takes_acceptElse hrequires (by simp [hrest])) ?_
    rintro _ rfl
    refine Takes.bind (G.statement hother (by omega) hrest hends) fun other' hother' => ?_
    exact takes_pure (by simp [hother'])
  refine Takes.bind hbranch fun branch' hbranch' => ?_
  obtain ⟨other', rfl, hother'⟩ := Option.map_eq_some_iff.1 hbranch'
  refine takes_spanFrom fun span => ?_
  exact takes_pure (by simp [Stmt.bare, hcondition', hthen', hother'])

/-! Loops. -/

theorem takes_whileStatement {condition : Expr} {body : Stmt} (hcondition : condition.Legible)
    (hbody : body.Legible) (hn : condition.shapes.length + body.shapes.length < n)
    (hrest : rest ≠ []) (hends : body.EndsBefore rest) :
    Takes (.keyword .whileLoop :: .leftParen :: (condition.shapes ++ .rightParen ::
        (body.shapes ++ rest))) rest
      (·.bare = .whileLoop {} condition.bare body.bare) (whileStatement g start) := by
  refine takes_past rfl (by simp) ?_
  refine Takes.bind (takes_condition G hcondition (by omega) (by simp [hrest])) ?_
  intro condition' hcondition'
  refine Takes.bind (G.statement hbody (by omega) hrest hends) fun body' hbody' => ?_
  refine takes_spanFrom fun span => ?_
  exact takes_pure (by simp [Stmt.bare, hcondition', hbody'])

/-- A declaration in front of a `;`. -/
theorem takes_declarationRest {kind : DeclarationKind} {name : String} {init : Option Expr}
    {span start : Span} (hkind : kind = .letDecl ∨ init.isSome = true)
    (hinit : ∀ e ∈ init, e.Legible) (hn : (Stmt.declare span kind name init).shapes.length ≤ n)
    (ht : t.kind = .semicolon) :
    Takes ((Stmt.declare span kind name init).shapes ++ t :: more) (t :: more)
      (·.bare = (Stmt.declare span kind name init).bare) (declarationRest g kind start) := by
  cases init with
  | none =>
    obtain rfl : kind = .letDecl := by simpa using hkind
    refine takes_past rfl (by simp) ?_
    refine Takes.bind (takes_expectName (by simp)) ?_
    rintro _ rfl
    refine takes_nextKind t rfl ?_
    rw [ht]
    refine takes_spanFrom fun span => ?_
    exact takes_pure (by simp [Stmt.bare])
  | some e =>
    simp only [Stmt.shapes, List.length_cons] at hn
    refine takes_past rfl (by simp) ?_
    refine Takes.bind (takes_expectName (by simp)) ?_
    rintro _ rfl
    refine takes_nextKind .assign rfl ?_
    refine takes_past rfl (by simp) ?_
    refine Takes.bind (G.expression (hinit e rfl) (by omega) (by rw [ht]; rfl)) fun e' he' => ?_
    refine takes_spanFrom fun span => ?_
    exact takes_pure (by simp [Stmt.bare, he'])

theorem takes_forInit {init : Option Stmt} (hclause : init.all Stmt.isClause = true)
    (hinit : ∀ s ∈ init, s.LegibleInside) (hn : (init.elim [] Stmt.shapes).length ≤ n)
    (hmore : more ≠ []) :
    Takes (init.elim [] Stmt.shapes ++ .semicolon :: more) more
      (·.map Stmt.bare = init.map Stmt.bare) (forInit g) := by
  refine takes_location fun start => ?_
  cases init with
  | none =>
    refine takes_nextKind .semicolon rfl ?_
    refine takes_past rfl hmore ?_
    exact takes_pure rfl
  | some s =>
    have hs := hinit s rfl
    have hend : ∀ init', Stmt.bare init' = s.bare → Takes (.semicolon :: more) more
        (·.map Stmt.bare = some s.bare) (do
          let _ ← expect .semicolon "Expected ';' after 'for' initializer"
          return some init') := by
      intro init' hinit'
      exact takes_expected (t := .semicolon) rfl hmore (takes_pure (by simp [hinit']))
    cases s with
    | expression _ e =>
      obtain ⟨t, ht, hopens⟩ := e.head?_shapes hs
      refine takes_nextKind t (by simp [Stmt.shapes, ht]) ?_
      split
      case h_1 heq =>
        rw [heq] at hopens
        cases hopens
      case h_2 =>
        dsimp only
        split
        case h_3 =>
          exact Takes.bind (takes_expressionStatement G hs hn rfl) fun init' hinit' =>
            hend init' hinit'
        all_goals simp_all [TokenKind.opens, special?]
    | declare _ kind name init =>
      simp only [Option.all_some, Stmt.isClause, Bool.and_eq_true, Bool.or_eq_true,
        decide_eq_true_eq] at hclause
      have hexpr : ∀ e ∈ init, e.Legible := by
        rintro e rfl
        exact hs
      refine takes_nextKind (.keyword kind.keyword) (by cases init <;> rfl) ?_
      cases kind <;> exact Takes.bind (takes_declarationRest G hclause.2 hexpr hn rfl)
        fun init' hinit' => hend init' hinit'
    | _ => cases hclause

theorem takes_forClause {e : Option Expr} {message : String} (he : ∀ e' ∈ e, e'.Legible)
    (hn : (e.elim [] Expr.shapes).length ≤ n) (ht : t.kind.closes = true) (hmore : more ≠ []) :
    Takes (e.elim [] Expr.shapes ++ t :: more) more
      (·.map Expr.bare = e.map Expr.bare) (forClause g t.kind message) := by
  have heof : (t.kind == .eof) = false := by
    apply beq_false_of_ne
    intro hkind
    rw [hkind] at ht
    cases ht
  cases e with
  | none =>
    refine takes_accepted heof hmore ?_
    exact takes_pure rfl
  | some e =>
    obtain ⟨u, hu, hopens⟩ := e.head?_shapes (he e rfl)
    have hne : u.kind ≠ t.kind := by
      intro hkind
      rw [hkind, TokenKind.opens_of_closes ht] at hopens
      cases hopens
    refine Takes.bind (takes_accept_of_ne u (by simp [hu]) hne) ?_
    rintro _ rfl
    refine Takes.bind (G.expression (he e rfl) hn ht) fun e' he' => ?_
    refine takes_expected heof hmore ?_
    exact takes_pure (by simp [he'])

theorem takes_forStatement {init : Option Stmt} {condition update : Option Expr} {body : Stmt}
    (hclause : init.all Stmt.isClause = true)
    (hinit : ∀ s ∈ init, s.LegibleInside) (hcondition : ∀ e ∈ condition, e.Legible)
    (hupdate : ∀ e ∈ update, e.Legible) (hbody : body.Legible)
    (hn : (init.elim [] Stmt.shapes).length + (condition.elim [] Expr.shapes).length +
      (update.elim [] Expr.shapes).length + body.shapes.length < n)
    (hrest : rest ≠ []) (hends : body.EndsBefore rest) :
    Takes (.keyword .forLoop :: .leftParen :: (init.elim [] Stmt.shapes ++ .semicolon ::
        (condition.elim [] Expr.shapes ++ .semicolon :: (update.elim [] Expr.shapes ++
          .rightParen :: (body.shapes ++ rest))))) rest
      (·.bare = .forLoop {} (init.map Stmt.bare) (condition.map Expr.bare)
        (update.map Expr.bare) body.bare) (forStatement g start) := by
  refine takes_past rfl (by simp) ?_
  refine takes_expected (t := .leftParen) rfl (by simp) ?_
  refine Takes.bind (takes_forInit G hclause hinit (by omega) (by simp)) fun init' hinit' => ?_
  refine Takes.bind (takes_forClause G (t := .semicolon) hcondition (by omega) rfl (by simp)) ?_
  intro condition' hcondition'
  refine Takes.bind (takes_forClause G (t := .rightParen) hupdate (by omega) rfl
    (by simp [hrest])) fun update' hupdate' => ?_
  refine Takes.bind (G.statement hbody (by omega) hrest hends) fun body' hbody' => ?_
  refine takes_spanFrom fun span => ?_
  exact takes_pure (by rw [Stmt.bare_forLoop, hinit', hcondition', hupdate', hbody'])

/-! Statements with blocks. -/

theorem takes_switchStatement {subject : Expr} {items : List Item} (hsubject : subject.Legible)
    (hitems : ∀ item ∈ items, item.statement.Legible)
    (hlabels : ∀ item ∈ items, item.label.all CaseLabel.isRead = true)
    (hn : subject.shapes.length + (Item.shapesAll items).length < n) (hrest : rest ≠ []) :
    Takes (.keyword .switch :: .leftParen :: (subject.shapes ++ .rightParen :: .leftBrace ::
        (Item.shapesAll items ++ .rightBrace :: rest))) rest
      (·.bare = .switch {} subject.bare (Item.bareAll items)) (switchStatement g start) := by
  refine takes_past rfl (by simp) ?_
  refine Takes.bind (takes_condition G hsubject (by omega) (by simp)) ?_
  intro subject' hsubject'
  refine takes_nextKind .leftBrace rfl ?_
  refine Takes.bind (takes_block G hitems hlabels (by simp) (by omega) hrest) ?_
  intro items' hitems'
  refine takes_spanFrom fun span => ?_
  exact takes_pure (by simp [Stmt.bare, hsubject', hitems'])

omit G in
/-- The `;` behind the body of a `try`, if the body needs one. -/
theorem takes_terminator {β : Type} {R : β → Prop} {s s' : Stmt} {p : Parser β}
    (hs : s'.requiresSemicolon = s.requiresSemicolon) (hmore : more ≠ [])
    (h : Takes more rest R p) :
    Takes (s.terminatorShapes ++ more) rest R
      (if s'.requiresSemicolon then accept .semicolon >>= fun _ => p else p) := by
  rw [hs, Stmt.terminatorShapes]
  split
  · exact Takes.bind (takes_accept (t := .semicolon) rfl hmore)
      fun _ _ => h
  · exact h

theorem takes_tryStatement {body handler : Stmt} {binding : String} (hbody : body.Legible)
    (hhandler : handler.Legible) (hn : body.shapes.length + handler.shapes.length < n)
    (hrest : rest ≠ []) (hends : handler.EndsBefore rest) :
    Takes (.keyword .tryBlock :: (body.shapes ++ (body.terminatorShapes ++ .keyword .catchBlock ::
        .leftParen :: .identifier binding :: .rightParen :: (handler.shapes ++ rest)))) rest
      (·.bare = .tryCatch {} body.bare binding handler.bare) (tryStatement g start) := by
  refine takes_past rfl (by simp) ?_
  refine Takes.bind (G.statement hbody (by omega) (by simp)
    (Stmt.endsBefore_of_head? rfl (by simp [Shape.keyword]))) fun body' hbody' => ?_
  have hrequires : body'.requiresSemicolon = body.requiresSemicolon := by
    rw [← body'.requiresSemicolon_bare, hbody', body.requiresSemicolon_bare]
  dsimp only
  refine takes_terminator hrequires (List.cons_ne_nil _ _) ?_
  refine takes_expected (t := .keyword .catchBlock) rfl (by simp) ?_
  refine takes_expected (t := .leftParen) rfl (by simp) ?_
  refine Takes.bind (takes_expectName (by simp)) ?_
  rintro _ rfl
  refine takes_expected (t := .rightParen) rfl (by simp [hrest]) ?_
  refine Takes.bind (G.statement hhandler (by omega) hrest hends) fun handler' hhandler' => ?_
  refine takes_spanFrom fun span => ?_
  exact takes_pure (by simp [Stmt.bare, hbody', hhandler'])

theorem takes_functionStatement {name : String} {params : List String} {body : List Item}
    (hbody : ∀ item ∈ body, item.statement.Legible) (hlabels : ∀ item ∈ body, item.label = none)
    (hn : (Item.shapesAll body).length < n) (hrest : rest ≠ []) :
    Takes (.keyword .function :: .identifier name :: .leftParen ::
        (Shape.listed (params.map fun p => [.identifier p]) ++ .rightParen :: .leftBrace ::
          (Item.shapesAll body ++ .rightBrace :: rest))) rest
      (·.bare = .function {} (.mk {} (some name) params (Item.bareAll body)))
      (functionStatement g start) := by
  refine takes_past rfl (by simp) ?_
  refine Takes.bind (takes_advance rfl (by simp)) fun token htoken => ?_
  have hname : token.lexeme = name := congrArg Shape.lexeme htoken
  rw [hname]
  refine Takes.bind (takes_functionRest G start hbody hlabels hn hrest) ?_
  intro definition' hdefinition'
  refine takes_spanFrom fun span => ?_
  exact takes_pure (by rw [Stmt.bare, hdefinition'])

/-- A statement behind its first token, if that is a keyword. -/
theorem takes_statementOf {s : Stmt} (hs : s.Legible) (hn : s.shapes.length ≤ n) (hrest : rest ≠ [])
    (hends : s.EndsBefore rest) :
    Takes (s.shapes ++ rest) rest (·.bare = s.bare) (statementOf g start) := by
  obtain ⟨u, more, rfl⟩ := List.exists_cons_of_ne_nil hrest
  have hread := hs.isRead
  have hplain := hs.startsPlainly
  have hinside := hs.inside
  -- a statement that needs a `;` stands in front of one
  have hsemicolon : s.requiresSemicolon = true → u.kind = .semicolon := by
    intro hrequires
    simpa using hends.semicolon hrequires
  have hcloses : s.requiresSemicolon = true → u.kind.closes = true := by
    intro hrequires
    rw [hsemicolon hrequires]
    rfl
  cases s with
  | expression _ e =>
    simp only [Stmt.startsPlainly, Bool.not_eq_true'] at hplain
    exact takes_statementOf_expression G hinside hplain hn (hcloses rfl)
  | block _ items =>
    simp only [Stmt.LegibleInside, Stmt.inside, Item.everyAll_iff] at hinside
    simp only [Stmt.isRead, List.all_eq_true, Option.isNone_iff_eq_none] at hread
    simp only [Stmt.shapes, List.length_append, List.length_cons] at hn
    simp only [Stmt.shapes, List.cons_append, List.append_assoc, List.nil_append]
    refine takes_nextKind .leftBrace rfl ?_
    have hitems : ∀ item ∈ items, item.statement.Legible := fun item hitem =>
      ⟨(hinside item hitem).1, (hinside item hitem).2⟩
    refine Takes.bind (takes_block G hitems (fun item hitem => by simp [hread item hitem])
      (fun _ => hread) (by omega) hrest) fun items' hitems' => ?_
    refine takes_spanFrom fun span => ?_
    exact takes_pure (by rw [Stmt.bare, Stmt.bare, hitems'])
  | ifElse _ condition thenBranch other =>
    cases other with
    | none =>
      simp only [Stmt.LegibleInside, Stmt.inside, Bool.and_eq_true] at hinside
      simp only [Stmt.shapes, List.length_append, List.length_cons] at hn
      simp only [Stmt.shapes, List.cons_append, List.append_assoc]
      refine takes_nextKind (.keyword .ifElse) rfl ?_
      exact takes_ifStatement_none G hinside.1.1 ⟨hinside.1.2.1, hinside.1.2.2⟩ (by omega) hrest
        ⟨hends.1, hends.2⟩
    | some other =>
      simp only [Stmt.LegibleInside, Stmt.inside, Bool.and_eq_true] at hinside
      simp only [Stmt.isRead, Bool.not_eq_true'] at hread
      simp only [Stmt.shapes, List.length_append, List.length_cons] at hn
      simp only [Stmt.shapes, List.cons_append, List.append_assoc]
      refine takes_nextKind (.keyword .ifElse) rfl ?_
      exact takes_ifStatement_some G hinside.1.1 ⟨hinside.1.2.1, hinside.1.2.2⟩ hread
        ⟨hinside.2.1, hinside.2.2⟩ (by omega) hrest ⟨hends.1, hends.2⟩
  | whileLoop _ condition body =>
    simp only [Stmt.LegibleInside, Stmt.inside, Bool.and_eq_true] at hinside
    simp only [Stmt.shapes, List.length_append, List.length_cons] at hn
    simp only [Stmt.shapes, List.cons_append, List.append_assoc]
    refine takes_nextKind (.keyword .whileLoop) rfl ?_
    exact takes_whileStatement G hinside.1 ⟨hinside.2.1, hinside.2.2⟩ (by omega) hrest
      ⟨hends.1, hends.2⟩
  | forLoop _ init condition update body =>
    simp only [Stmt.LegibleInside, Stmt.inside_forLoop, Bool.and_eq_true, Option.all_eq_true]
      at hinside
    simp only [Stmt.shapes_forLoop, List.length_append, List.length_cons] at hn
    simp only [Stmt.shapes_forLoop, Stmt.bare_forLoop, List.cons_append, List.append_assoc]
    refine takes_nextKind (.keyword .forLoop) rfl ?_
    exact takes_forStatement G hread hinside.1.1.1 hinside.1.1.2 hinside.1.2
      ⟨hinside.2.1, hinside.2.2⟩ (by omega) hrest ⟨hends.1, hends.2⟩
  | switch _ subject items =>
    simp only [Stmt.LegibleInside, Stmt.inside, Bool.and_eq_true, Item.everyAll_iff] at hinside
    simp only [Stmt.isRead, List.all_eq_true] at hread
    simp only [Stmt.shapes, List.length_append, List.length_cons] at hn
    simp only [Stmt.shapes, List.cons_append, List.append_assoc, List.nil_append]
    refine takes_nextKind (.keyword .switch) rfl ?_
    exact takes_switchStatement G hinside.1 (fun item hitem =>
      ⟨(hinside.2 item hitem).1, (hinside.2 item hitem).2⟩) hread (by omega) hrest
  | tryCatch _ body binding handler =>
    simp only [Stmt.LegibleInside, Stmt.inside, Bool.and_eq_true] at hinside
    simp only [Stmt.shapes, List.length_append, List.length_cons] at hn
    simp only [Stmt.shapes, List.cons_append, List.append_assoc]
    refine takes_nextKind (.keyword .tryBlock) rfl ?_
    exact takes_tryStatement G ⟨hinside.1.1, hinside.1.2⟩ ⟨hinside.2.1, hinside.2.2⟩ (by omega)
      hrest ⟨hends.1, hends.2⟩
  | throwValue _ value =>
    simp only [Stmt.shapes, List.length_cons] at hn
    refine takes_nextKind (.keyword .throwValue) rfl ?_
    refine takes_past rfl (by simp) ?_
    refine Takes.bind (G.expression hinside (by omega) (hcloses rfl)) fun value' hvalue' => ?_
    refine takes_spanFrom fun span => ?_
    exact takes_pure (by rw [Stmt.bare, Stmt.bare, hvalue'])
  | returnValue _ value =>
    cases value with
    | none =>
      refine takes_nextKind (.keyword .returnValue) rfl ?_
      refine takes_past rfl (by simp) ?_
      refine takes_nextKind u rfl ?_
      rw [hsemicolon rfl]
      exact takes_pure rfl
    | some value =>
      obtain ⟨t, ht, hopens⟩ := value.head?_shapes hinside
      simp only [Stmt.shapes, List.length_cons] at hn
      refine takes_nextKind (.keyword .returnValue) rfl ?_
      refine takes_past rfl (by simp) ?_
      refine takes_nextKind t (by simp [ht]) ?_
      split
      case h_4 =>
        refine Takes.bind (G.expression hinside (by omega) (hcloses rfl)) fun value' hvalue' => ?_
        refine takes_spanFrom fun span => ?_
        exact takes_pure (by rw [Stmt.bare, Stmt.bare, hvalue'])
      all_goals simp_all [TokenKind.opens]
  | breakLoop | continueLoop =>
    refine takes_nextKind _ rfl ?_
    refine takes_past rfl (by simp) ?_
    exact takes_pure rfl
  | declare span kind name init =>
    simp only [Stmt.isRead, Stmt.isClause, Bool.and_eq_true, Bool.or_eq_true,
      decide_eq_true_eq] at hread
    have hexpr : ∀ e ∈ init, e.Legible := by
      rintro e rfl
      exact hinside
    refine takes_nextKind (.keyword kind.keyword) (by cases init <;> rfl) ?_
    cases kind <;> exact takes_declarationRest G hread.2 hexpr hn (hsemicolon rfl)
  | function _ definition =>
    obtain ⟨_, name, params, body⟩ := definition
    simp only [Stmt.LegibleInside, Stmt.inside, FunctionDef.every, Item.everyAll_iff] at hinside
    simp only [Stmt.isRead, FunctionDef.isRead, FunctionDef.name, FunctionDef.body,
      Bool.and_eq_true, List.all_eq_true, Option.isNone_iff_eq_none] at hread
    obtain ⟨name, rfl⟩ := Option.isSome_iff_exists.1 hread.2
    simp only [Stmt.shapes, FunctionDef.shapes, Shape.function, Option.toList_some, List.map_cons,
      List.map_nil, List.length_append, List.length_cons] at hn
    simp only [Stmt.shapes, FunctionDef.shapes, Shape.function, Option.toList_some, List.map_cons,
      List.map_nil, List.cons_append, List.append_assoc, List.nil_append]
    refine takes_nextKind (.keyword .function) rfl (takes_secondKind ?_)
    exact takes_functionStatement G (fun item hitem =>
      ⟨(hinside item hitem).1, (hinside item hitem).2⟩) hread.1.2 (by omega) hrest
  | error => cases hread

end

end Parser

end Scripting
