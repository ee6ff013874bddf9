import Scripting.Proofs.Precedence.Grouping
import Scripting.Proofs.RoundTrip.Rebuilding

/-!
The parser groups operators by their levels.

Main statement: a sequence of operands with operators between them is read to its end, as its one
well-grouped tree (`expression_grouped`).
-/

namespace Scripting

variable {level : Nat}

/-- The kind of the tokens that an operator is written as. -/
def Operator.kind : Operator → TokenKind
  | .binary op => op.kind
  | .assign op => op.kind

theorem Operator.kind_injective {o o' : Operator} (h : o.kind = o'.kind) : o = o' := by
  obtain op | op := o <;> obtain op' | op' := o' <;> cases op <;> cases op' <;>
    first | rfl | cases h

/-- The tokens that go on with an expression: what goes on with an operand, and the operators. -/
def TokenKind.continues : TokenKind → Bool
  | .dot | .leftParen | .leftBracket | .plusPlus | .minusMinus => true
  | .assign | .plusAssign | .minusAssign | .starAssign | .slashAssign | .percentAssign => true
  | .plus | .minus | .star | .slash | .percent => true
  | .bangEqual | .equalEqual | .less | .lessEqual | .greater | .greaterEqual => true
  | .andAnd | .orOr => true
  | _ => false

theorem TokenKind.goesOn_of_continues {kind : TokenKind} (h : kind.continues = false) :
    kind.goesOn = false := by
  cases kind <;> first | rfl | cases h

theorem Operator.continues_kind (o : Operator) : o.kind.continues = true := by
  obtain op | op := o <;> cases op <;> rfl

/-- A token that does not go on with an expression is no operator. -/
theorem Operator.kind_ne {kind : TokenKind} (h : kind.continues = false) (o : Operator) :
    kind ≠ o.kind := by
  rintro rfl
  rw [o.continues_kind] at h
  cases h

theorem Operator.goesOn_kind (o : Operator) : o.kind.goesOn = false := by
  obtain op | op := o <;> cases op <;> rfl

theorem Operator.kind_ne_eof (o : Operator) : o.kind ≠ .eof := by
  obtain op | op := o <;> cases op <;> exact TokenKind.noConfusion

/-- The token is an operand by itself; a number has to be in range. -/
inductive Token.IsAtom (t : Token) : Atom → Prop where
  | name (kind : t.kind = .identifier) : IsAtom t (.name t.lexeme)
  | number {n : Int64} (kind : t.kind = .number)
      (value : Text.readLiteral? t.lexeme.toList = some n) : IsAtom t (.number n)

theorem Token.IsAtom.plain {t : Token} {a : Atom} (h : t.IsAtom a) :
    Parser.prefixOp? t.kind = none ∧ t.kind ≠ .keyword .newObject ∧ t.kind ≠ .eof := by
  cases h with
  | name kind => simp [kind, Parser.prefixOp?]
  | number kind value => simp [kind, Parser.prefixOp?]

structure AtomToken where
  token : Token
  atom : Atom
  reads : token.IsAtom atom

structure OperatorToken where
  token : Token
  operator : Operator
  kind : token.kind = operator.kind

/-- The operators of a sequence, each with the operand behind it. -/
abbrev Chain : Type :=
  List (OperatorToken × AtomToken)

namespace Chain

variable {p : OperatorToken × AtomToken}

def tokens : Chain → List Token
  | [] => []
  | (o, a) :: rest => o.token :: a.token :: tokens rest

def pieces : Chain → List Piece
  | [] => []
  | (o, a) :: rest => .operator o.operator :: .atom a.atom :: pieces rest

/-- The operators at the front that bind as tightly as a level, with their operands. -/
def tight (level : Nat) (chain : Chain) : Chain :=
  chain.takeWhile fun p => level ≤ p.1.operator.level

/-- What is behind them. -/
def loose (level : Nat) (chain : Chain) : Chain :=
  chain.dropWhile fun p => level ≤ p.1.operator.level

theorem length_le_length_tokens (chain : Chain) : chain.length ≤ chain.tokens.length := by
  induction chain with
  | nil => exact Nat.le_refl _
  | cons p rest ih =>
    rw [tokens, List.length_cons, List.length_cons, List.length_cons]
    omega

theorem pieces_append (chain chain' : Chain) :
    pieces (chain ++ chain') = chain.pieces ++ chain'.pieces := by
  induction chain with
  | nil => rfl
  | cons p rest ih => exact congrArg (_ :: _ :: ·) ih

theorem tight_append_loose (level : Nat) (chain : Chain) :
    chain.tight level ++ chain.loose level = chain :=
  List.takeWhile_append_dropWhile

theorem tight_cons (rest : Chain) (h : level ≤ p.1.operator.level) :
    tight level (p :: rest) = p :: rest.tight level :=
  List.takeWhile_cons_of_pos (by simpa using h)

theorem loose_cons (rest : Chain) (h : level ≤ p.1.operator.level) :
    loose level (p :: rest) = rest.loose level :=
  List.dropWhile_cons_of_pos (by simpa using h)

theorem tight_cons_of_lt (rest : Chain) (h : p.1.operator.level < level) :
    tight level (p :: rest) = [] :=
  List.takeWhile_cons_of_neg (by simpa using h)

theorem loose_cons_of_lt (rest : Chain) (h : p.1.operator.level < level) :
    loose level (p :: rest) = p :: rest :=
  List.dropWhile_cons_of_neg (by simpa using h)

/-- What binds as tightly as a level is what binds tighter, and then what binds as tightly. -/
theorem tight_succ (level : Nat) (chain : Chain) :
    chain.tight level = chain.tight (level + 1) ++ (chain.loose (level + 1)).tight level := by
  induction chain with
  | nil => rfl
  | cons p rest ih =>
    by_cases h : level + 1 ≤ p.1.operator.level
    · rw [tight_cons rest (by omega), tight_cons rest h, loose_cons rest h, ih, List.cons_append]
    · have hlt : p.1.operator.level < level + 1 := by omega
      rw [tight_cons_of_lt rest hlt, loose_cons_of_lt rest hlt, List.nil_append]

theorem loose_succ (level : Nat) (chain : Chain) :
    chain.loose level = (chain.loose (level + 1)).loose level := by
  induction chain with
  | nil => rfl
  | cons p rest ih =>
    by_cases h : level + 1 ≤ p.1.operator.level
    · rw [loose_cons rest (by omega), loose_cons rest h, ih]
    · have hlt : p.1.operator.level < level + 1 := by omega
      rw [loose_cons_of_lt rest hlt]

theorem level_lt_of_loose {chain rest : Chain} (h : chain.loose level = p :: rest) :
    p.1.operator.level < level := by
  induction chain with
  | nil => cases h
  | cons q chain ih =>
    by_cases hq : level ≤ q.1.operator.level
    · rw [loose_cons chain hq] at h
      exact ih h
    · rw [loose_cons_of_lt chain (by omega)] at h
      cases h
      omega

theorem level_le_of_head?_loose {chain : Chain} :
    ∀ p ∈ (chain.loose (level + 1)).head?, p.1.operator.level ≤ level := by
  intro p hp
  obtain ⟨rest, hrest⟩ := List.head?_eq_some_iff.1 hp
  exact Nat.le_of_lt_succ (level_lt_of_loose hrest)

theorem length_loose_le (level : Nat) (chain : Chain) : (chain.loose level).length ≤ chain.length :=
  (List.dropWhile_sublist _).length_le

end Chain

theorem Cursor.ahead_advance {c : Cursor} {t u : Token} {more : List Token}
    (h : c.next :: c.rest = t :: u :: more) (ht : t.kind ≠ .eof) :
    c.advance.next :: c.advance.rest = u :: more := by
  obtain ⟨last, next, rest, left, left_eq⟩ := c
  cases h
  simp [Cursor.advance, ht]

namespace Parser

variable {g : Grammar} {follow : Token} {more : List Token} {c : Cursor}

/-- A well-grouped tree of some pieces is read, whose operators bind as tightly as a level, up to the
tokens `ahead`. -/
def ReadsGrouped (level : Nat) (pieces : List Piece) (ahead : List Token) (reply : Reply Expr) :
    Prop :=
  ∃ e c, reply = .ok e c ∧ c.next :: c.rest = ahead ∧ e.InOrder pieces ∧ e.WellGrouped ∧
    level ≤ e.level

/-- The parser reads an operand and the operators behind it that bind as tightly as a level, with
their operands. -/
def Groups (level : Nat) (p : Parser Expr) : Prop :=
  ∀ (first : AtomToken) (chain : Chain) (follow : Token) (more : List Token) (c : Cursor),
    follow.kind.continues = false → c.next :: c.rest = first.token :: chain.tokens ++ follow :: more →
    ReadsGrouped level (.atom first.atom :: (chain.tight level).pieces)
      ((chain.loose level).tokens ++ follow :: more) (p c)

theorem primary_isAtom {a : Atom} (h : c.next.IsAtom a) :
    ∃ e, primary g c = .ok e c.advance ∧ e.InOrder [.atom a] ∧ e.WellGrouped ∧ e.level = 6 := by
  cases h with
  | name kind =>
    refine ⟨.identifier c.next.span c.next.lexeme, ?_, .name _ _, trivial, rfl⟩
    simp only [primary, bind, andThen, peek, kind, advance, pure, result]
  | number kind value =>
    refine ⟨.integer c.next.span _, ?_, .number _ _, trivial, rfl⟩
    simp only [primary, bind, andThen, peek, kind, integerValue, value, advance, pure, result]

theorem withPostfixes_of_goesOn {e : Expr} (h : c.next.kind.goesOn = false) :
    withPostfixes g e c = .ok e c := by
  rw [withPostfixes, bounded, postfixes]
  simp only [bind, andThen, nextKind]
  generalize c.next.kind = kind at h
  cases kind <;> first | rfl | cases h

theorem groups_unary : Groups 6 (unary g) := by
  intro first chain follow more c hfollow hc
  have hnext : c.next = first.token := by
    rw [List.cons_append, List.cons.injEq] at hc
    exact hc.1
  have hreads := first.reads
  rw [← hnext] at hreads
  obtain ⟨hplain, hnew, heof⟩ := hreads.plain
  obtain ⟨e, hprimary, horder, hgrouped, hlevel⟩ := primary_isAtom (g := g) hreads
  have hloose : chain.loose 6 = chain ∧ chain.tight 6 = [] := by
    cases chain with
    | nil => exact ⟨rfl, rfl⟩
    | cons p rest =>
      have hlt := p.1.operator.level_lt
      exact ⟨Chain.loose_cons_of_lt rest hlt, Chain.tight_cons_of_lt rest hlt⟩
  have hahead : c.advance.next :: c.advance.rest = chain.tokens ++ follow :: more := by
    cases chain with
    | nil => exact Cursor.ahead_advance hc (hnext ▸ heof)
    | cons p rest => exact Cursor.ahead_advance hc (hnext ▸ heof)
  have hstop : c.advance.next.kind.goesOn = false := by
    cases chain with
    | nil =>
      rw [Chain.tokens, List.nil_append, List.cons.injEq] at hahead
      rw [hahead.1]
      exact TokenKind.goesOn_of_continues hfollow
    | cons p rest =>
      rw [Chain.tokens, List.cons_append, List.cons.injEq] at hahead
      rw [hahead.1, p.1.kind]
      exact p.1.operator.goesOn_kind
  refine ⟨e, c.advance, ?_, ?_, ?_, hgrouped, by omega⟩
  · simp only [unary, bind, andThen, peek, hplain]
    rw [hprimary]
    exact withPostfixes_of_goesOn hstop
  · rw [hloose.1, hahead]
  · rw [hloose.2]
    exact horder

/-- The operators that one level of the parser knows are those of one level. -/
structure Tabulates (level : Nat) (op? : TokenKind → Option BinaryOp) : Prop where
  known : ∀ op : BinaryOp, op.level = level → op? op.kind = some op
  sound : ∀ kind op, op? kind = some op → kind = op.kind ∧ op.level = level

theorem Tabulates.eq_none_of_operator {op? : TokenKind → Option BinaryOp} (h : Tabulates level op?)
    {o : Operator} (ho : o.level ≠ level) : op? o.kind = none := by
  cases hop : op? o.kind with
  | none => rfl
  | some op =>
    obtain ⟨hkind, hlevel⟩ := h.sound o.kind op hop
    have heq : o = .binary op := Operator.kind_injective hkind
    rw [heq] at ho
    exact absurd hlevel ho

theorem Tabulates.eq_none_of_follow {op? : TokenKind → Option BinaryOp} (h : Tabulates level op?)
    {kind : TokenKind} (hkind : kind.continues = false) : op? kind = none := by
  cases hop : op? kind with
  | none => rfl
  | some op => exact absurd (h.sound kind op hop).1 (Operator.kind_ne hkind (.binary op))

section

variable {operand : Parser Expr} {op? : TokenKind → Option BinaryOp} {limit : Nat}
  {left right : Expr}

theorem binaryRest_of_none (h : op? c.next.kind = none) :
    binaryRest operand op? (limit + 1) left c = .ok left c := by
  simp only [binaryRest, bind, andThen, nextKind, h, pure, result]

theorem binaryRest_of_some {op : BinaryOp} {c' : Cursor} (h : op? c.next.kind = some op)
    (hright : operand c.advance = .ok right c') :
    binaryRest operand op? (limit + 1) left c =
      binaryRest operand op? limit (.binary (left.span.join right.span) op left right) c' := by
  simp only [binaryRest, bind, andThen, nextKind, h, advance, hright]

/-- The operator of a level that is the next token. -/
theorem Tabulates.of_level_eq (h : Tabulates level op?) (hpos : 0 < level) {o : Operator}
    (ho : o.level = level) : ∃ op, o = .binary op ∧ op? o.kind = some op := by
  cases o with
  | binary op => exact ⟨op, rfl, h.known op ho⟩
  | assign op =>
    rw [Operator.level] at ho
    omega

/-- The loop over the operators of one level: `left` is what is read, and no operator that binds
tighter than the level comes next. -/
theorem binaryRest_groups (hoperand : Groups (level + 1) operand) (htable : Tabulates level op?)
    (hpos : 0 < level) {pieces : List Piece} {chain : Chain} (hfollow : follow.kind.continues = false)
    (hc : c.next :: c.rest = chain.tokens ++ follow :: more)
    (hhead : ∀ p ∈ chain.head?, p.1.operator.level ≤ level) (hlimit : chain.length < limit)
    (horder : left.InOrder pieces) (hgrouped : left.WellGrouped) (hlevel : level ≤ left.level) :
    ReadsGrouped level (pieces ++ (chain.tight level).pieces)
      ((chain.loose level).tokens ++ follow :: more) (binaryRest operand op? limit left c) := by
  induction limit generalizing left pieces chain c with
  | zero => exact absurd hlimit (Nat.not_lt_zero _)
  | succ limit ih =>
    cases chain with
    | nil =>
      have hnext : c.next = follow := by
        rw [Chain.tokens, List.nil_append, List.cons.injEq] at hc
        exact hc.1
      have hnone := htable.eq_none_of_follow hfollow
      rw [← hnext] at hnone
      rw [binaryRest_of_none hnone]
      exact ⟨left, c, rfl, hc, by simpa [Chain.tight, Chain.pieces] using horder, hgrouped, hlevel⟩
    | cons p rest =>
      obtain ⟨o, a⟩ := p
      have hle : o.operator.level ≤ level := hhead (o, a) (by simp)
      have hnext : c.next.kind = o.operator.kind := by
        rw [Chain.tokens, List.cons_append, List.cons.injEq] at hc
        rw [hc.1, o.kind]
      by_cases hlt : o.operator.level < level
      · -- a looser operator is left to the levels above
        have hnone := htable.eq_none_of_operator (Nat.ne_of_lt hlt)
        rw [← hnext] at hnone
        rw [binaryRest_of_none hnone, Chain.tight_cons_of_lt rest hlt, Chain.loose_cons_of_lt rest hlt]
        exact ⟨left, c, rfl, hc, by simpa [Chain.pieces] using horder, hgrouped, hlevel⟩
      · -- an operator of this level takes what is on its left, and what binds tighter behind it
        have heq : o.operator.level = level := by omega
        have hge : level ≤ o.operator.level := by omega
        obtain ⟨op, hop, hsome⟩ := htable.of_level_eq hpos heq
        have heof : o.token.kind ≠ .eof := by
          rw [o.kind]
          exact o.operator.kind_ne_eof
        obtain ⟨right, c₁, hright, hc₁, horder₁, hgrouped₁, hlevel₁⟩ :=
          hoperand a rest follow more _ hfollow (Cursor.ahead_advance hc heof)
        rw [← hnext] at hsome
        rw [binaryRest_of_some hsome hright, Chain.loose_cons rest hge, Chain.loose_succ,
          Chain.tight_cons rest hge, Chain.tight_succ]
        have hlevel_op : (Operator.binary op).level = level := by rw [← hop, heq]
        have hlimit₁ : (Chain.loose (level + 1) rest).length < limit := by
          have hlength := Chain.length_loose_le (level + 1) rest
          rw [List.length_cons] at hlimit
          omega
        have hrest := ih hc₁ Chain.level_le_of_head?_loose hlimit₁
          (.binary (left.span.join right.span) horder horder₁)
          ⟨by omega, by omega, hgrouped, hgrouped₁⟩ (Nat.le_of_eq hlevel_op.symm)
        rw [Chain.pieces, Chain.pieces_append, hop]
        simpa using hrest

/-- One more level of the parser takes the operators of one more level. -/
theorem Groups.binaryLevel (hoperand : Groups (level + 1) operand) (htable : Tabulates level op?)
    (hpos : 0 < level) : Groups level (binaryLevel operand op?) := by
  intro first chain follow more c hfollow hc
  obtain ⟨left, c₁, hleft, hc₁, horder, hgrouped, hlevel⟩ :=
    hoperand first chain follow more c hfollow hc
  have hlimit : (chain.loose (level + 1)).length < c₁.left + 1 := by
    have hlength := congrArg List.length hc₁
    have htokens := Chain.length_le_length_tokens (chain.loose (level + 1))
    rw [List.length_cons, ← c₁.left_eq, List.length_append, List.length_cons] at hlength
    omega
  have hrest := binaryRest_groups hoperand htable hpos hfollow hc₁ Chain.level_le_of_head?_loose
    hlimit horder hgrouped (Nat.le_of_succ_le hlevel)
  rw [Chain.loose_succ, Chain.tight_succ, Chain.pieces_append, ← List.cons_append]
  simpa only [Parser.binaryLevel, bind, andThen, hleft, bounded] using hrest

end

/-- The levels of the grammar are those of the table. -/
theorem tabulates_binaryLevels :
    Tabulates 5 multiplicativeOp? ∧ Tabulates 4 additiveOp? ∧ Tabulates 3 comparisonOp? ∧
      Tabulates 2 andOp? ∧ Tabulates 1 orOp? := by
  and_intros
  all_goals
    constructor
    · intro op h
      cases op <;> first | rfl | cases h
    · intro kind op h
      cases kind <;> cases h
      all_goals exact ⟨rfl, rfl⟩

theorem groups_binaryLevels : Groups 1 (binaryLevels.foldl binaryLevel (unary g)) := by
  obtain ⟨hmultiplicative, hadditive, hcomparison, hand, hor⟩ := tabulates_binaryLevels
  have hunary : Groups 6 (unary g) := groups_unary
  have hfactor := hunary.binaryLevel hmultiplicative (by decide)
  have hsum := hfactor.binaryLevel hadditive (by decide)
  have hcompared := hsum.binaryLevel hcomparison (by decide)
  have hconjunction := hcompared.binaryLevel hand (by decide)
  exact hconjunction.binaryLevel hor (by decide)

theorem assignOp?_eq_none {kind : TokenKind} (h : kind.continues = false) :
    assignOp? kind = none := by
  cases hop : assignOp? kind with
  | none => rfl
  | some op =>
    have hkind : kind = (Operator.assign op).kind := by
      cases kind <;> cases hop <;> rfl
    exact absurd hkind (Operator.kind_ne h _)

theorem assignOp?_kind (op : AssignOp) : assignOp? op.kind = some op := by
  cases op <;> rfl

/-- An assignment is the first looser operator, and its value is all that is behind it. Every
assignment goes one level deeper, so there are enough levels if there are more than operators. -/
theorem expression_groups {n : Nat} {first : AtomToken} {chain : Chain} (hn : chain.length < n)
    (hfollow : follow.kind.continues = false)
    (hc : c.next :: c.rest = first.token :: chain.tokens ++ follow :: more) :
    ReadsGrouped 0 (.atom first.atom :: chain.pieces) (follow :: more)
      ((Grammar.ofDepth n).expression c) := by
  induction n generalizing first chain c with
  | zero => exact absurd hn (Nat.not_lt_zero _)
  | succ n ih =>
    obtain ⟨target, c₁, htarget, hc₁, horder, hgrouped, hlevel⟩ :=
      groups_binaryLevels (g := Grammar.ofDepth n) first chain follow more c hfollow hc
    have hsplit := chain.tight_append_loose 1
    change ReadsGrouped 0 _ _ (assignment (Grammar.ofDepth n) c)
    generalize chain.tight 1 = front at hsplit horder
    generalize hloose : chain.loose 1 = back at hsplit hc₁
    cases back with
    | nil =>
      have hnext : c₁.next = follow := by
        rw [Chain.tokens, List.nil_append, List.cons.injEq] at hc₁
        exact hc₁.1
      have hnone := assignOp?_eq_none hfollow
      rw [← hnext] at hnone
      rw [List.append_nil] at hsplit
      rw [← hsplit]
      refine ⟨target, c₁, ?_, hc₁, horder, hgrouped, Nat.zero_le _⟩
      simp only [assignment, bind, andThen, htarget, nextKind, hnone, pure, result]
    | cons p rest =>
      obtain ⟨o, a⟩ := p
      have hlt : o.operator.level < 1 := Chain.level_lt_of_loose hloose
      obtain ⟨op, hop⟩ : ∃ op, o.operator = .assign op := by
        cases ho : o.operator with
        | binary op =>
          rw [ho] at hlt
          exact absurd hlt (by cases op <;> decide)
        | assign op => exact ⟨op, rfl⟩
      have hsome : assignOp? c₁.next.kind = some op := by
        rw [Chain.tokens, List.cons_append, List.cons.injEq] at hc₁
        rw [hc₁.1, o.kind, hop]
        exact assignOp?_kind op
      have heof : o.token.kind ≠ .eof := by
        rw [o.kind]
        exact o.operator.kind_ne_eof
      have hn₁ : rest.length < n := by
        have hlength := congrArg List.length hsplit
        rw [List.length_append, List.length_cons] at hlength
        omega
      obtain ⟨value, c₂, hvalue, hc₂, horder₂, hgrouped₂, -⟩ :=
        ih hn₁ (Cursor.ahead_advance hc₁ heof)
      refine ⟨.assign (target.span.join value.span) op target value, c₂, ?_, hc₂, ?_,
        ⟨hlevel, hgrouped, hgrouped₂⟩, Nat.zero_le _⟩
      · simp only [assignment, bind, andThen, htarget, nextKind, hsome, advance, hvalue, pure, result]
      · rw [← hsplit, Chain.pieces_append, Chain.pieces, hop, ← List.cons_append]
        exact .assign _ horder horder₂

end Parser

/-- A sequence of operands with operators between them, in front of a token that cannot go on with it,
is read exactly, as a tree that has it as its reading and is grouped by the levels of its operators.
Up to spans there is no other such tree. -/
theorem expression_grouped (first : AtomToken) (chain : Chain) (follow : Token) (more : List Token)
    (c : Cursor) (hfollow : follow.kind.continues = false)
    (hc : c.next :: c.rest = first.token :: chain.tokens ++ follow :: more) :
    ∃ e stop, Parser.expressionAt c = (e, stop) ∧ stop.next :: stop.rest = follow :: more ∧
      e.InOrder (.atom first.atom :: chain.pieces) ∧ e.WellGrouped ∧
      ∀ e' : Expr, e'.InOrder (.atom first.atom :: chain.pieces) → e'.WellGrouped →
        e'.bare = e.bare := by
  have hdepth : chain.length < 2 * c.left + 4 := by
    have hlength := congrArg List.length hc
    have htokens := chain.length_le_length_tokens
    rw [List.length_cons, ← c.left_eq, List.length_append, List.length_cons, List.length_cons]
      at hlength
    omega
  obtain ⟨e, stop, hread, hstop, horder, hgrouped, -⟩ :=
    Parser.expression_groups hdepth hfollow hc
  refine ⟨e, stop, ?_, hstop, horder, hgrouped, ?_⟩
  · rw [Parser.expressionAt, Grammar.forCursor, hread]
  · intro e' horder' hgrouped'
    exact horder.unique horder' hgrouped hgrouped'

def AtomToken.ofName (name : String) : AtomToken :=
  ⟨⟨.identifier, name, {}⟩, .name name, .name rfl⟩

def OperatorToken.of (o : Operator) : OperatorToken :=
  ⟨⟨o.kind, "", {}⟩, o, rfl⟩

/-- The operators of `a = b = c - d - e * f == g`. -/
def mixedChain : Chain :=
  [(.of (.assign .assign), .ofName "b"), (.of (.assign .assign), .ofName "c"),
    (.of (.binary .subtract), .ofName "d"), (.of (.binary .subtract), .ofName "e"),
    (.of (.binary .multiply), .ofName "f"), (.of (.binary .equal), .ofName "g")]

/-- The tree of `a = (b = (((c - d) - (e * f)) == g))`. -/
def mixedTree : Expr :=
  .assign {} .assign (.identifier {} "a") <| .assign {} .assign (.identifier {} "b") <|
    .binary {} .equal
      (.binary {} .subtract
        (.binary {} .subtract (.identifier {} "c") (.identifier {} "d"))
        (.binary {} .multiply (.identifier {} "e") (.identifier {} "f")))
      (.identifier {} "g")

/-- Assignments group to the right, operators of one level to the left, and levels by how tightly they
bind. -/
theorem expression_grouped_mixed :
    ∃ e stop, Parser.expressionAt (Cursor.ofTokens
        ((AtomToken.ofName "a").token :: mixedChain.tokens ++ [⟨.semicolon, ";", {}⟩, .eof {}])) =
        (e, stop) ∧
      stop.next :: stop.rest = [⟨.semicolon, ";", {}⟩, .eof {}] ∧ e.bare = mixedTree.bare := by
  obtain ⟨e, stop, hread, hstop, -, -, hunique⟩ :=
    expression_grouped (.ofName "a") mixedChain ⟨.semicolon, ";", {}⟩ [.eof {}]
      (Cursor.ofTokens
        ((AtomToken.ofName "a").token :: mixedChain.tokens ++ [⟨.semicolon, ";", {}⟩, .eof {}])) rfl rfl
  refine ⟨e, stop, hread, hstop, (hunique mixedTree ?_ ?_).symm⟩
  · exact .assign {} (.name {} "a") <| .assign {} (.name {} "b") <|
      .binary {} (.binary {} (.binary {} (.name {} "c") (.name {} "d"))
        (.binary {} (.name {} "e") (.name {} "f"))) (.name {} "g")
  · simp [mixedTree, Expr.WellGrouped, Expr.level, Operator.level, BinaryOp.level]

end Scripting
