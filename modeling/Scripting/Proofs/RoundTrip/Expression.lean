import Scripting.Proofs.RoundTrip.Block

/-!
Expressions are read back from their shapes, if the grammar one level deeper reads the trees in them
back.
-/

namespace Scripting

theorem Expr.bare_withSpan (e : Expr) (span : Span) : (e.withSpan span).bare = e.bare := by
  cases e <;> rfl

theorem Expr.head?_shapes_ne_new {e : Expr} (hprimary : e.isPrimary = true) :
    e.shapes.head?.map Shape.kind ≠ some (.keyword .newObject) := by
  cases e with
  | special _ value => cases value <;> simp [Expr.shapes, Shape.keyword, Special.keyword]
  | unary _ op operand =>
    rw [Expr.shapes]
    split <;> simp [Shape.leftParen]
  | function _ definition =>
    obtain ⟨_, _, _, _⟩ := definition
    simp [Expr.shapes, FunctionDef.shapes, Shape.function, Shape.keyword]
  | member | call | subscript | construct => cases hprimary
  | _ => simp [Expr.shapes, Shape.number, Shape.string, Shape.identifier, Shape.leftParen]

theorem TokenKind.goesOn_of_closes {kind : TokenKind} (h : kind.closes = true) :
    kind.goesOn = false := by
  cases kind <;> first | rfl | cases h

theorem TokenKind.opens_of_closes {kind : TokenKind} (h : kind.closes = true) :
    kind.opens = false := by
  cases kind <;> first | rfl | cases h

theorem TokenKind.binaryOp_of_closes {kind : TokenKind} (h : kind.closes = true) :
    ∀ op? ∈ Parser.binaryLevels, op? kind = none := by
  cases kind <;> first | decide | cases h

theorem Expr.base_ne_member : (e : Expr) → ∀ {span object name}, e.base ≠ .member span object name
  | .member _ object _, _, _, _ => object.base_ne_member
  | .integer .., _, _, _ | .string .., _, _, _ | .identifier .., _, _, _ | .special .., _, _, _
  | .call .., _, _, _ | .subscript .., _, _, _ | .construct .., _, _, _ | .unary .., _, _, _
  | .binary .., _, _, _ | .assign .., _, _, _ | .function .., _, _, _ | .error .., _, _, _ =>
    Expr.noConfusion

theorem Expr.isPrimary_base {span : Span} {callee : Expr} {args : List Expr}
    (h : (Expr.construct span callee args).constructsPlainly = true) :
    callee.base.isPrimary = true := by
  rw [constructsPlainly] at h
  cases hbase : callee.base with
  | member => exact absurd hbase callee.base_ne_member
  | call | subscript | construct =>
    rw [hbase] at h
    cases h
  | _ => rfl

namespace Parser

variable {g : Grammar} {n : Nat} (G : g.Rebuilds n) {rest more : List Shape} {t : Shape}

/-- The first two of three steps, taken together. -/
theorem Takes.bind_bind {α β γ : Type} {all mid : List Shape} {Q : β → Prop} {R : γ → Prop}
    {p : Parser α} {f : α → Parser β} {k : β → Parser γ} (h : Takes all mid Q (p >>= f))
    (hk : ∀ b, Q b → Takes mid rest R (k b)) : Takes all rest R (p >>= fun a => f a >>= k) := by
  have hassoc : (p >>= fun a => f a >>= k) = p >>= f >>= k := by
    funext c
    change andThen p (fun a => andThen (f a) k) c = andThen (andThen p f) k c
    simp only [andThen]
    cases p c <;> rfl
  rw [hassoc]
  exact Takes.bind h hk

/-- An operand ends in front of a token that does not go on with it. -/
theorem takes_postfixes_stop {start : Span} {limit : Nat} {e : Expr} {Q : Expr → Prop}
    (hlimit : (t :: more).length ≤ limit) (ht : t.kind.goesOn = false) (he : Q e) :
    Takes (t :: more) (t :: more) Q (postfixes g start limit e) := by
  obtain _ | limit := limit
  · simp at hlimit
  rw [postfixes]
  refine takes_nextKind t rfl ?_
  split
  case h_6 => exact takes_pure he
  all_goals simp_all [TokenKind.goesOn]

section
include G

theorem takes_argumentList {limit : Nat} (e : Expr) (es : List Expr)
    (hes : ∀ e' ∈ e :: es, e'.Legible)
    (hn : (Shape.listed ((e :: es).map Expr.shapes)).length ≤ n) (hmore : more ≠ [])
    (hlimit : es.length < limit) :
    Takes (Shape.listed ((e :: es).map Expr.shapes) ++ .rightParen :: more) more
      (·.map Expr.bare = (e :: es).map Expr.bare) (argumentList g limit) := by
  induction es generalizing e limit with
  | nil =>
    obtain _ | limit := limit
    · simp at hlimit
    refine Takes.bind (G.expression (hes e (by simp)) hn rfl) fun e' he' => ?_
    refine Takes.bind (takes_accept_of_ne .rightParen rfl (by simp [Shape.rightParen])) ?_
    rintro _ rfl
    exact takes_expected (t := .rightParen) rfl hmore (takes_pure (by simp [he']))
  | cons second es ih =>
    obtain _ | limit := limit
    · simp at hlimit
    simp only [List.map_cons, Shape.listed, List.length_append, List.length_cons] at hn
    simp only [List.map_cons, Shape.listed, List.append_assoc, List.cons_append]
    refine Takes.bind (G.expression (hes e (by simp)) (by omega) rfl) fun e' he' => ?_
    refine takes_accepted (t := .comma) rfl (by simp) ?_
    have hrest := ih second (fun e' he' => hes e' (List.mem_cons_of_mem _ he'))
      (by rw [List.map_cons]; omega) (by simp at hlimit; omega)
    refine Takes.bind hrest fun es' hes' => ?_
    exact takes_pure (by simp [he', hes'])

theorem takes_arguments {es : List Expr} (hes : ∀ e ∈ es, e.Legible)
    (hn : (Shape.listed (es.map Expr.shapes)).length ≤ n) (hmore : more ≠ []) :
    Takes (Shape.listed (es.map Expr.shapes) ++ .rightParen :: more) more
      (·.map Expr.bare = es.map Expr.bare) (arguments g) := by
  cases es with
  | nil =>
    refine takes_accepted (t := .rightParen) rfl hmore ?_
    exact takes_pure rfl
  | cons e es =>
    obtain ⟨t, ht, hopens⟩ := e.head?_shapes (hes e (by simp))
    have hfirst : (Shape.listed ((e :: es).map Expr.shapes) ++ .rightParen :: more).head? =
        some t := by
      cases es <;> simp [Shape.listed, ht]
    have hkind : t.kind ≠ .rightParen := by
      intro h
      rw [h] at hopens
      cases hopens
    refine Takes.bind (takes_accept_of_ne t hfirst hkind) ?_
    rintro _ rfl
    refine takes_bounded (takes_argumentList G e es hes hn hmore ?_)
    have hne : ∀ l ∈ (e :: es).map Expr.shapes, l ≠ [] := by
      intro l hl
      obtain ⟨e', he', rfl⟩ := List.mem_map.1 hl
      exact (hes e' he').shapes_ne_nil
    have hlength := Shape.length_le_length_listed _ hne
    simp only [List.length_map, List.length_cons] at hlength
    simp only [List.length_append, List.length_cons]
    omega

theorem takes_functionExpression {definition : FunctionDef} (start : Span)
    (hread : definition.isRead = true)
    (h : definition.every Expr.isLegible Stmt.isLegible = true)
    (hn : definition.shapes.length ≤ n + 1) (hmore : more ≠ []) :
    Takes (definition.shapes.tail ++ more) more (·.bare = .function {} definition.bare)
      (functionExpression g start) := by
  obtain ⟨span, name, params, body⟩ := definition
  simp only [FunctionDef.isRead, FunctionDef.body, Bool.and_eq_true, List.all_eq_true,
    Option.isNone_iff_eq_none] at hread
  rw [FunctionDef.every, Item.everyAll_iff] at h
  simp only [FunctionDef.shapes, Shape.function, List.length_append, List.length_cons] at hn
  have hrest : ∀ name' : Option String,
      Takes (.leftParen :: (Shape.listed (params.map fun p => [.identifier p]) ++ .rightParen ::
        .leftBrace :: (Item.shapesAll body ++ .rightBrace :: more))) more
      (·.bare = .mk {} name' params (Item.bareAll body)) (functionRest g name' start) :=
    fun name' => takes_functionRest G start (fun item hitem => ⟨(h item hitem).1, (h item hitem).2⟩)
      hread.2 (by omega) hmore
  cases name with
  | none =>
    simp only [FunctionDef.shapes, Shape.function, Option.toList_none, List.map_nil, List.nil_append,
      List.cons_append, List.append_assoc, List.tail_cons]
    refine Takes.bind (Q := (· = none)) (takes_nextKind .leftParen rfl (takes_pure rfl)) ?_
    rintro _ rfl
    refine Takes.bind ((hrest none).blame start) fun definition' hdefinition' => ?_
    refine takes_spanFrom fun span' => ?_
    exact takes_pure (by simp [Expr.bare, FunctionDef.bare, hdefinition'])
  | some name =>
    simp only [FunctionDef.shapes, Shape.function, Option.toList_some, List.map_cons, List.map_nil,
      List.nil_append, List.cons_append, List.append_assoc, List.tail_cons]
    have hname : Takes (.identifier name :: .leftParen :: (Shape.listed
        (params.map fun p => [.identifier p]) ++ .rightParen :: .leftBrace ::
        (Item.shapesAll body ++ .rightBrace :: more)))
        (.leftParen :: (Shape.listed (params.map fun p => [.identifier p]) ++ .rightParen ::
        .leftBrace :: (Item.shapesAll body ++ .rightBrace :: more))) (· = some name)
        optionalName := by
      refine takes_nextKind (.identifier name) rfl ?_
      refine Takes.bind (takes_advance rfl (by simp)) ?_
      intro token htoken
      exact takes_pure (by rw [show token.lexeme = name from congrArg Shape.lexeme htoken])
    refine Takes.bind hname ?_
    rintro _ rfl
    refine Takes.bind ((hrest (some name)).blame start) fun definition' hdefinition' => ?_
    refine takes_spanFrom fun span' => ?_
    exact takes_pure (by simp [Expr.bare, FunctionDef.bare, hdefinition'])

theorem takes_parenthesized {e : Expr} (start : Span) (he : e.Legible) (hn : e.content.length ≤ n)
    (hmore : more ≠ []) :
    Takes (e.content ++ .rightParen :: more) more (·.bare = e.bare) (parenthesized g start) := by
  refine Takes.bind (G.content he hn rfl) fun e' he' => ?_
  refine takes_accepted (t := .rightParen) rfl hmore ?_
  refine takes_spanFrom fun span => ?_
  exact takes_pure (by rw [Expr.bare_withSpan, he'])

/-- An expression that is written in parentheses. -/
theorem takes_primary_grouped {e : Expr} (hgrouped : e.isGrouped = true) (he : e.Legible)
    (hn : e.shapes.length ≤ n + 1) (hmore : more ≠ []) :
    Takes (e.shapes ++ more) more (·.bare = e.bare) (primary g) := by
  rw [Expr.shapes_of_isGrouped hgrouped] at hn ⊢
  simp only [List.length_append, List.length_cons] at hn
  simp only [List.cons_append, List.append_assoc, List.nil_append]
  refine takes_peek fun token htoken => ?_
  have hkind : token.kind = .leftParen := congrArg Shape.kind htoken
  rw [hkind]
  refine takes_past rfl (by simp) ?_
  exact takes_parenthesized G token.span he (by omega) hmore

theorem takes_primary {e : Expr} (hprimary : e.isPrimary = true) (he : e.Legible)
    (hn : e.shapes.length ≤ n + 1) (hmore : more ≠ []) :
    Takes (e.shapes ++ more) more (·.bare = e.bare) (primary g) := by
  cases e with
  | integer _ value =>
    simp only [Expr.Legible, Expr.every, Expr.isLegible, Expr.isRead, Bool.and_eq_true,
      decide_eq_true_eq] at he
    refine takes_peek fun token htoken => ?_
    have hkind : token.kind = .number := congrArg Shape.kind htoken
    rw [hkind]
    refine Takes.bind (takes_integerValue he.1.1 htoken) ?_
    rintro _ rfl
    refine takes_past rfl hmore ?_
    exact takes_pure rfl
  | string _ text =>
    refine takes_peek fun token htoken => ?_
    have hkind : token.kind = .string := congrArg Shape.kind htoken
    have hlexeme : token.lexeme = text := congrArg Shape.lexeme htoken
    rw [hkind]
    refine takes_past rfl hmore ?_
    exact takes_pure (by rw [hlexeme]; rfl)
  | identifier _ name =>
    refine takes_peek fun token htoken => ?_
    have hkind : token.kind = .identifier := congrArg Shape.kind htoken
    have hlexeme : token.lexeme = name := congrArg Shape.lexeme htoken
    rw [hkind]
    refine takes_past rfl hmore ?_
    exact takes_pure (by rw [hlexeme]; rfl)
  | special _ value =>
    refine takes_peek fun token htoken => ?_
    have hkind : token.kind = .keyword value.keyword := congrArg Shape.kind htoken
    rw [hkind]
    refine Takes.mono (Q := (·.bare = .special {} value)) ?_ fun _ h => h
    cases value <;>
      exact takes_past rfl hmore (takes_pure rfl)
  | unary | binary | assign => exact takes_primary_grouped G rfl he hn hmore
  | function _ definition =>
    simp only [Expr.Legible, Expr.every, Expr.isLegible, Expr.isRead, Bool.and_eq_true] at he
    have hshapes : definition.shapes = .keyword .function :: definition.shapes.tail := by
      obtain ⟨_, _, _, _⟩ := definition
      rfl
    have hnonempty : definition.shapes.tail ++ more ≠ [] := by simp [hmore]
    rw [Expr.shapes, hshapes, List.cons_append]
    refine takes_peek fun token htoken => ?_
    have hkind : token.kind = .keyword .function := congrArg Shape.kind htoken
    rw [hkind]
    refine takes_past rfl hnonempty ?_
    exact takes_functionExpression G token.span he.1.1.1 he.2 hn hmore
  | member | call | subscript | construct => cases hprimary
  | error => simp [Expr.Legible, Expr.every, Expr.isLegible, Expr.isRead] at he

end

/-! Operands. What follows an operand is read by a loop that has the operand read so far, so the rules
for the chains of operators speak about all that the loop goes on to read. -/

theorem takes_memberName {object : Expr} {name : String} {object' : Expr}
    (hobject : object'.bare = object.bare) (hmore : more ≠ []) :
    Takes (.word name :: more) more (·.bare = .member {} object.bare name)
      (memberName object') := by
  refine takes_peek fun token htoken => ?_
  have hlexeme : token.lexeme = name := congrArg Shape.lexeme htoken
  have hkind : token.kind = (Shape.word name).kind := congrArg Shape.kind htoken
  have htake : Takes (.word name :: more) more (·.bare = Expr.member {} object.bare name) (do
      let _ ← advance
      return Expr.member (object'.span.join token.span) object' token.lexeme) := by
    refine takes_past ?_ hmore ?_
    · unfold Shape.word
      split <;> rfl
    · exact takes_pure (by rw [Expr.bare, hobject, hlexeme])
  have hcases : (Shape.word name).kind = .identifier ∨
      ∃ word, (Shape.word name).kind = .keyword word := by
    unfold Shape.word
    cases Keyword.ofText? name with
    | none => exact .inl rfl
    | some word => exact .inr ⟨word, rfl⟩
  obtain h | ⟨word, h⟩ := hcases <;> rw [hkind, h] <;> exact htake

theorem takes_unary_primary {all : List Shape} {R : Expr → Prop} (ht : all.head? = some t)
    (hopens : t.kind.opens = true) (hnew : t.kind ≠ .keyword .newObject)
    (h : Takes all rest R (primary g >>= withPostfixes g)) : Takes all rest R (unary g) := by
  obtain ⟨more, rfl⟩ := List.head?_eq_some_iff.1 ht
  refine takes_peek fun token htoken => ?_
  have hkind : token.kind = t.kind := congrArg Shape.kind htoken
  have hnone : prefixOp? t.kind = none := by
    cases hk : t.kind <;> first | rfl | (rw [hk] at hopens; cases hopens)
  rw [hkind, hnone]
  dsimp only
  split
  · exact absurd ‹_› hnew
  · exact h

/-- Behind an expression no operator follows. -/
theorem takes_assignment_of_levels {all : List Shape} {Q : Expr → Prop}
    (h : Takes all (t :: more) Q (binaryLevels.foldl binaryLevel (unary g)))
    (ht : t.kind.closes = true) : Takes all (t :: more) Q (assignment g) := by
  refine Takes.bind h fun target htarget => takes_nextKind t rfl ?_
  have hnone : assignOp? t.kind = none := by
    cases hkind : t.kind <;> first | rfl | (rw [hkind] at ht; cases ht)
  rw [hnone]
  exact takes_pure htarget

section
include G

theorem takes_memberChain {R : Expr → Prop} : (callee : Expr) → (more : List Shape) →
    callee.base.isPrimary = true → callee.Legible → callee.shapes.length ≤ n + 1 → more ≠ [] →
    (∀ limit callee', callee'.bare = callee.bare → more.length ≤ limit →
      Takes more rest R (memberChain limit callee')) →
    Takes (callee.shapes ++ more) rest R
      (primary g >>= fun first => bounded fun limit => memberChain limit first)
  | .member _ object name, more, hbase, h, hn, hmore, hrest => by
    simp only [Expr.Legible, Expr.every, Bool.and_eq_true] at h
    simp only [Expr.shapes, List.length_append, List.length_cons] at hn
    simp only [Expr.shapes, List.append_assoc, List.cons_append, List.nil_append]
    refine takes_memberChain object _ hbase h.2 (by omega) (by simp) ?_
    intro limit object' hobject' hlimit
    obtain _ | limit := limit
    · simp at hlimit
    refine takes_accepted (t := .dot) rfl (by simp) ?_
    refine Takes.bind (takes_memberName hobject' hmore) fun access haccess => ?_
    exact hrest limit access haccess (by simp at hlimit; omega)
  | .integer .., more, hbase, h, hn, hmore, hrest | .string .., more, hbase, h, hn, hmore, hrest
  | .identifier .., more, hbase, h, hn, hmore, hrest
  | .special .., more, hbase, h, hn, hmore, hrest | .unary .., more, hbase, h, hn, hmore, hrest
  | .binary .., more, hbase, h, hn, hmore, hrest | .assign .., more, hbase, h, hn, hmore, hrest
  | .function .., more, hbase, h, hn, hmore, hrest
  | .error .., more, hbase, h, hn, hmore, hrest => by
    refine Takes.bind (takes_primary G rfl h hn hmore) fun first hfirst => ?_
    exact takes_bounded (hrest more.length first hfirst (Nat.le_refl _))

theorem takes_callee {callee : Expr} (hbase : callee.base.isPrimary = true) (h : callee.Legible)
    (hn : callee.shapes.length ≤ n + 1) :
    Takes (callee.shapes ++ .leftParen :: more) (.leftParen :: more) (·.bare = callee.bare)
      (primary g >>= fun first => bounded fun limit => memberChain limit first) := by
  refine takes_memberChain G callee _ hbase h hn (by simp) ?_
  intro limit callee' hcallee' hlimit
  obtain _ | limit := limit
  · simp at hlimit
  refine Takes.bind (takes_accept_of_ne .leftParen rfl (by simp [Shape.leftParen])) ?_
  rintro _ rfl
  exact takes_pure hcallee'

theorem takes_construction {callee : Expr} {args : List Expr} {R : Expr → Prop} {start : Span}
    (hbase : callee.base.isPrimary = true) (hcallee : callee.Legible)
    (hargs : ∀ e ∈ args, e.Legible)
    (hn : callee.shapes.length + (Shape.listed (args.map Expr.shapes)).length ≤ n)
    (hmore : more ≠ [])
    (h : ∀ start limit e', e'.bare = .construct {} callee.bare (args.map Expr.bare) →
      more.length ≤ limit → Takes more rest R (postfixes g start limit e')) :
    Takes (callee.shapes ++ .leftParen :: (Shape.listed (args.map Expr.shapes) ++ .rightParen ::
      more)) rest R (construction g start) := by
  unfold construction
  refine Takes.bind_bind (takes_callee G hbase hcallee (by omega)) fun callee' hcallee' => ?_
  refine takes_accepted (t := .leftParen) rfl (by simp) ?_
  refine Takes.bind ((takes_arguments G hargs (by omega) hmore).blame start) fun args' hargs' => ?_
  refine takes_spanFrom fun span => takes_bounded ?_
  exact h _ _ _ (by simp [Expr.bare, Expr.bareAll_eq, hcallee', hargs']) (Nat.le_refl _)

theorem takes_unary_of_isPrimary {e : Expr} {R : Expr → Prop} (hprimary : e.isPrimary = true)
    (he : e.Legible) (hn : e.shapes.length ≤ n + 1) (hmore : more ≠ [])
    (h : ∀ start limit e', e'.bare = e.bare → more.length ≤ limit →
      Takes more rest R (postfixes g start limit e')) :
    Takes (e.shapes ++ more) rest R (unary g) := by
  obtain ⟨t, ht, hopens⟩ := e.head?_shapes he
  have hnew : t.kind ≠ .keyword .newObject := by
    intro hkind
    exact e.head?_shapes_ne_new hprimary (by rw [ht, Option.map_some, hkind])
  refine takes_unary_primary (t := t) (by simp [ht]) hopens hnew ?_
  refine Takes.bind (takes_primary G hprimary he hn hmore) fun first hfirst => takes_bounded ?_
  exact h _ _ _ hfirst (Nat.le_refl _)

theorem takes_unary_chain {R : Expr → Prop} : (e : Expr) → (more : List Shape) → e.Legible →
    e.shapes.length ≤ n + 1 → more ≠ [] →
    (∀ start limit e', e'.bare = e.bare → more.length ≤ limit →
      Takes more rest R (postfixes g start limit e')) →
    Takes (e.shapes ++ more) rest R (unary g)
  | .member _ object name, more, h, hn, hmore, hrest => by
    simp only [Expr.Legible, Expr.every, Bool.and_eq_true] at h
    simp only [Expr.shapes, List.length_append, List.length_cons] at hn
    simp only [Expr.shapes, List.append_assoc, List.cons_append, List.nil_append]
    refine takes_unary_chain object _ h.2 (by omega) (by simp) ?_
    intro start limit object' hobject' hlimit
    obtain _ | limit := limit
    · simp at hlimit
    refine takes_nextKind .dot rfl ?_
    refine takes_past rfl (by simp) ?_
    refine Takes.bind (takes_memberName hobject' hmore) fun access haccess => ?_
    exact hrest start limit access haccess (by simp at hlimit; omega)
  | .call _ callee args, more, h, hn, hmore, hrest => by
    simp only [Expr.Legible, Expr.every, Bool.and_eq_true, Expr.everyAll_iff] at h
    simp only [Expr.shapes, Expr.shapesAll_eq, List.length_append, List.length_cons] at hn
    simp only [Expr.shapes, Expr.shapesAll_eq, List.append_assoc, List.cons_append,
      List.nil_append]
    refine takes_unary_chain callee _ h.1.2 (by omega) (by simp) ?_
    intro start limit callee' hcallee' hlimit
    obtain _ | limit := limit
    · simp at hlimit
    refine takes_nextKind .leftParen rfl ?_
    refine takes_past rfl (by simp) ?_
    refine Takes.bind ((takes_arguments G h.2 (by omega) hmore).blame start) ?_
    intro args' hargs'
    refine takes_spanFrom fun span => hrest start limit _ ?_ ?_
    · simp [Expr.bare, Expr.bareAll_eq, hcallee', hargs']
    · simp at hlimit
      omega
  | .subscript _ object index, more, h, hn, hmore, hrest => by
    simp only [Expr.Legible, Expr.every, Bool.and_eq_true] at h
    simp only [Expr.shapes, List.length_append, List.length_cons] at hn
    simp only [Expr.shapes, List.append_assoc, List.cons_append, List.nil_append]
    refine takes_unary_chain object _ h.1.2 (by omega) (by simp) ?_
    intro start limit object' hobject' hlimit
    obtain _ | limit := limit
    · simp at hlimit
    refine takes_nextKind .leftBracket rfl ?_
    refine takes_past (by simp [Shape.leftBracket]) (by simp) ?_
    refine Takes.bind (G.expression h.2 (by omega) rfl) fun index' hindex' => ?_
    refine takes_accepted (t := .rightBracket) rfl hmore ?_
    refine takes_spanFrom fun span => hrest start limit _ ?_ ?_
    · simp [Expr.bare, hobject', hindex']
    · simp at hlimit
      omega
  | .construct _ callee args, more, h, hn, hmore, hrest => by
    simp only [Expr.Legible, Expr.every, Bool.and_eq_true, Expr.everyAll_iff, Expr.isLegible] at h
    simp only [Expr.shapes, Expr.shapesAll_eq, List.length_append, List.length_cons] at hn
    simp only [Expr.shapes, Expr.shapesAll_eq, List.append_assoc, List.cons_append,
      List.nil_append]
    refine takes_peek fun token htoken => ?_
    have hkind : token.kind = .keyword .newObject := congrArg Shape.kind htoken
    rw [hkind]
    refine takes_past rfl (by simp) ?_
    refine takes_construction G (Expr.isPrimary_base h.1.1.2) h.1.2 h.2 (by omega) hmore ?_
    intro start limit e' he' hlimit
    exact hrest start limit e' (by rw [he', Expr.bare, Expr.bareAll_eq]) hlimit
  | .integer .., more, h, hn, hmore, hrest | .string .., more, h, hn, hmore, hrest
  | .identifier .., more, h, hn, hmore, hrest | .special .., more, h, hn, hmore, hrest
  | .unary .., more, h, hn, hmore, hrest | .binary .., more, h, hn, hmore, hrest
  | .assign .., more, h, hn, hmore, hrest | .function .., more, h, hn, hmore, hrest
  | .error .., more, h, hn, hmore, hrest =>
    takes_unary_of_isPrimary G rfl h hn hmore hrest

theorem takes_unary {e : Expr} (he : e.Legible) (hn : e.shapes.length ≤ n + 1)
    (ht : t.kind.goesOn = false) :
    Takes (e.shapes ++ t :: more) (t :: more) (·.bare = e.bare) (unary g) :=
  takes_unary_chain G e _ he hn (by simp) fun _ _ _ he' hlimit => takes_postfixes_stop hlimit ht he'

theorem takes_assignment {e : Expr} (he : e.Legible) (hn : e.shapes.length ≤ n + 1)
    (ht : t.kind.closes = true) :
    Takes (e.shapes ++ t :: more) (t :: more) (·.bare = e.bare) (assignment g) :=
  takes_assignment_of_levels
    ((takes_unary G he hn (TokenKind.goesOn_of_closes ht)).binaryLevels
      (TokenKind.binaryOp_of_closes ht)) ht

theorem takes_assignment_content {e : Expr} (he : e.Legible) (hn : e.content.length ≤ n + 1)
    (ht : t.kind.closes = true) :
    Takes (e.content ++ t :: more) (t :: more) (·.bare = e.bare) (assignment g) := by
  have hstop := TokenKind.goesOn_of_closes ht
  have hlevels := TokenKind.binaryOp_of_closes ht
  cases e with
  | unary _ op operand =>
    simp only [Expr.Legible, Expr.every, Bool.and_eq_true] at he
    refine takes_assignment_of_levels (Takes.binaryLevels ?_ hlevels) ht
    cases hop : op.isPostfix with
    | true =>
      simp only [Expr.content, hop, if_true, List.length_append, List.length_cons] at hn
      simp only [Expr.content, hop, if_true, List.append_assoc, List.cons_append, List.nil_append]
      refine takes_unary_chain G operand _ he.2 (by omega) (by simp) ?_
      intro start limit operand' hoperand' hlimit
      obtain _ | limit := limit
      · simp at hlimit
      have hrest : ∀ span, Takes (t :: more) (t :: more) (·.bare = .unary {} op operand.bare)
          (postfixes g start limit (.unary span op operand')) := fun span =>
        takes_postfixes_stop (by simp at hlimit ⊢; omega) hstop (by simp [Expr.bare, hoperand'])
      refine takes_nextKind op.shape rfl ?_
      cases op <;> cases hop
      all_goals
        refine Takes.bind (takes_advance rfl (by simp)) ?_
        exact fun _ _ => takes_spanFrom fun span => hrest span
    | false =>
      simp only [Expr.content, hop, Bool.false_eq_true, if_false, List.length_cons] at hn
      simp only [Expr.content, hop, Bool.false_eq_true, if_false, List.cons_append]
      refine takes_peek fun token htoken => ?_
      have hkind : prefixOp? token.kind = some op := by
        rw [show token.kind = op.kind from congrArg Shape.kind htoken]
        cases op <;> first | rfl | cases hop
      rw [hkind]
      refine takes_past (by cases op <;> rfl) (by simp) ?_
      refine Takes.bind (G.operand he.2 (by omega) hstop) fun operand' hoperand' => ?_
      exact takes_pure (by simp [Expr.bare, hoperand'])
  | binary _ op left right =>
    simp only [Expr.Legible, Expr.every, Bool.and_eq_true] at he
    simp only [Expr.content, List.length_append, List.length_cons] at hn
    simp only [Expr.content, List.append_assoc, List.cons_append]
    refine takes_assignment_of_levels ?_ ht
    refine takes_binary (takes_unary G he.1.2 (by omega) ?_) (takes_unary G he.2 (by omega) hstop)
      ?_ ?_ (by simp) hlevels <;> cases op <;> first | rfl | simp [BinaryOp.shape, BinaryOp.kind]
  | assign _ op target value =>
    simp only [Expr.Legible, Expr.every, Bool.and_eq_true] at he
    simp only [Expr.content, List.length_append, List.length_cons] at hn
    simp only [Expr.content, List.append_assoc, List.cons_append]
    have hop : assignOp? op.shape.kind = some op := by cases op <;> rfl
    refine Takes.bind ((takes_unary G he.1.2 (by omega) ?_).binaryLevels ?_) fun target' htarget' =>
      takes_nextKind op.shape rfl ?_
    · cases op <;> rfl
    · cases op <;> decide
    · rw [hop]
      refine takes_past (by cases op <;> simp [AssignOp.shape, AssignOp.kind]) (by simp) ?_
      refine Takes.bind (G.expression he.2 (by omega) ht) fun value' hvalue' => ?_
      exact takes_pure (by simp [Expr.bare, htarget', hvalue'])
  | _ => exact takes_assignment G he hn ht

end

end Parser

end Scripting
