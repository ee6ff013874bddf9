import Scripting.Proofs.Excerpt.Turns
import Scripting.Proofs.RoundTrip.Expression

/-!
What a production reads in front of the border of a text, it reads in a text that is the same up to there.

Two things look past the end of a statement: an `if` looks behind a `;` for its `else`, and a statement
may end where a text ends. Where the second text is cut off or goes on with a `;` and no `else`, both find
the same.
-/

namespace Scripting

/-- What the first grammar reads in front of the border, the second one reads in the second text. -/
structure Grammar.Tracks (cut : Cut) (g g' : Grammar) : Prop where
  expression : ∀ {c d : Cursor}, c.Trims cut d →
    Parser.Consumes cut c d Expr.bare g.expression g'.expression
  operand : ∀ {c d : Cursor}, c.Trims cut d →
    Parser.Consumes cut c d Expr.bare g.operand g'.operand
  statement : ∀ {c d : Cursor}, c.Trims cut d →
    Parser.Consumes cut c d Stmt.bare g.statement g'.statement

namespace Parser

variable {cut : Cut} {g g' : Grammar} {c d : Cursor}

/-! Numbers, labels and parameters. -/

/-- The value of a number moves no cursor. -/
theorem consumes_integerValue {β γ : Type} {view : β → γ} {t u : Token} {f f' : Int64 → Parser β}
    (hlexeme : t.lexeme = u.lexeme) (hf : ∀ n, Consumes cut c d view (f n) (f' n)) :
    Consumes cut c d view (integerValue t >>= f) (integerValue u >>= f') := by
  unfold integerValue
  rw [hlexeme]
  cases Text.readLiteral? u.lexeme.toList with
  | some n => exact ⟨(hf n).tracks.congr rfl rfl, (hf n).takes⟩
  | none => exact consumes_failAt

theorem tracks_caseLabel (h : c.Trims cut d) : Tracks cut c d id caseLabel caseLabel := by
  apply tracks_nextKind h
  split
  · apply forks_advance h (by simp [*])
    intro n₁ h₁
    apply (consumes_expect h₁ (by simp) ?_).tracks
    intro _ n₂ _ h₂
    exact tracks_pure h₂ rfl
  · apply forks_advance h (by simp [*])
    intro n₁ h₁
    apply (tracks_accept_pure h₁ (by simp)).bind h₁.ends
    rintro negative _ m₂ n₂ h₂ rfl
    apply (consumes_expect h₂ (by simp) ?_).tracks
    intro t n₃ shape h₃
    apply (consumes_integerValue (congrArg Shape.lexeme shape).symm ?_).tracks
    intro value
    apply consumes_expect h₃ (by simp)
    intro _ n₄ _ h₄
    exact tracks_pure h₄ rfl
  · exact forks_self (tracks_pure h rfl) rfl rfl

theorem tracks_params {limit limit' : Nat} (h : c.Trims cut d) :
    Tracks cut c d id (params limit) (params limit') := by
  induction limit generalizing limit' c d with
  | zero => exact consumes_exhausted.tracks
  | succ limit ih =>
    apply tracks_limit params rfl
    intro limit'
    apply (consumes_expectName h).tracks.bind h.ends
    rintro name _ m₁ n₁ h₁ rfl
    apply tracks_accept h₁ (by simp)
    · intro n₂ h₂
      apply (ih h₂).bind h₂.ends
      rintro names _ m₃ n₃ h₃ rfl
      exact tracks_pure h₃ rfl
    · apply (consumes_expect h₁ (by simp) ?_).tracks
      intro _ n₂ _ h₂
      exact tracks_pure h₂ rfl

theorem tracks_paramList (h : c.Trims cut d) : Tracks cut c d id paramList paramList := by
  apply tracks_accept h (by simp)
  · intro n₁ h₁
    exact tracks_pure h₁ rfl
  · exact tracks_bounded fun _ _ => tracks_params h

theorem tracks_optionalName (h : c.Trims cut d) : Tracks cut c d id optionalName optionalName := by
  apply tracks_nextKind h
  split
  · rename_i hkind
    apply Consumes.forks
    apply consumes_advance h (by simp [hkind])
    intro t n₁ shape h₁
    exact tracks_pure h₁ (congrArg some (congrArg Shape.lexeme shape).symm)
  · exact forks_self (tracks_pure h rfl) rfl rfl

/-! Blocks and functions. -/

/-- A label, where there may be one. -/
theorem consumes_label {β γ : Type} {view : β → γ} {labels : Bool}
    {f f' : Option CaseLabel → Parser β} (h : c.Trims cut d)
    (hf : ∀ label m n, m.Trims cut n → Consumes cut m n view (f label) (f' label)) :
    Consumes cut c d view (if labels then caseLabel >>= f else pure none >>= f)
      (if labels then caseLabel >>= f' else pure none >>= f') := by
  cases labels with
  | true =>
    apply (tracks_caseLabel h).bind_consumes h.ends
    rintro label _ m n hn rfl
    exact hf label m n hn
  | false => exact hf none c d h

section

variable (G : g.Tracks cut g') {start start' : Span}
include G

theorem tracks_items {labels : Bool} {limit limit' : Nat} (h : c.Trims cut d) :
    Tracks cut c d Item.bareAll (items g labels limit) (items g' labels limit') := by
  induction limit generalizing limit' c d with
  | zero => exact consumes_exhausted.tracks
  | succ limit ih =>
    apply tracks_limit (items g' labels) rfl
    intro limit'
    have hrest : ∀ {label : Option CaseLabel} {s s' : Stmt} {m n : Cursor}, m.Trims cut n →
        s.bare = s'.bare → Tracks cut m n Item.bareAll
          (do
            let rest ← items g labels limit
            return .mk label s :: rest)
          (do
            let rest ← items g' labels limit'
            return .mk label s' :: rest) := by
      intro label s s' m n hn hs
      apply (ih hn).bind hn.ends
      intro rest rest' m₁ n₁ h₁ hrest
      exact tracks_pure h₁ (by simp only [Item.bareAll, hs, hrest])
    apply (consumes_skipSemicolons h ?_).tracks
    intro m₁ n₁ h₁
    apply consumes_nextKind h₁
    split
    · apply consumes_advance h₁ (by simp [*])
      intro _ n₂ _ h₂
      exact tracks_pure h₂ rfl
    · exact consumes_failHere
    · apply consumes_label h₁
      intro label m₂ n₂ h₂
      apply (G.statement h₂).bind h₂.ends
      intro s s' m₃ n₃ h₃ hs
      rw [← Stmt.requiresSemicolon_bare s, hs, Stmt.requiresSemicolon_bare s']
      split
      · apply tracks_nextKind h₃
        split
        · apply forks_advance h₃ (by simp [*])
          intro n₄ h₄
          exact hrest h₄ hs
        · apply forks_advance h₃ (by simp [*])
          intro n₄ h₄
          exact tracks_pure h₄ (by simp only [Item.bareAll, hs])
        · exact consumes_failHere.forks
      · exact hrest h₃ hs

theorem consumes_block {labels : Bool} (h : c.Trims cut d) :
    Consumes cut c d Item.bareAll (block g labels) (block g' labels) := by
  apply consumes_expect h (by simp)
  intro _ n₁ _ h₁
  exact tracks_bounded fun _ _ => tracks_items G h₁

theorem consumes_functionRest {name : Option String} (h : c.Trims cut d) :
    Consumes cut c d FunctionDef.bare
      (functionRest g name start) (functionRest g' name start') := by
  apply consumes_expect h (by simp)
  intro _ n₁ _ h₁
  apply (tracks_paramList h₁).bind h₁.ends
  rintro names _ m₂ n₂ h₂ rfl
  apply tracks_nextKind h₂
  split
  · apply Consumes.forks
    apply (consumes_block G h₂).bind h₂.ends
    intro body body' m₃ n₃ h₃ hbody
    exact tracks_node h₃ fun _ _ => by simp only [FunctionDef.bare, hbody, id_eq]
  · exact consumes_failHere.forks

/-! Operands. -/

theorem tracks_argumentList {limit limit' : Nat} (h : c.Trims cut d) :
    Tracks cut c d Expr.bareAll (argumentList g limit) (argumentList g' limit') := by
  induction limit generalizing limit' c d with
  | zero => exact consumes_exhausted.tracks
  | succ limit ih =>
    apply tracks_limit (argumentList g') rfl
    intro limit'
    apply (G.expression h).tracks.bind h.ends
    intro e e' m₁ n₁ h₁ he
    apply tracks_accept h₁ (by simp)
    · intro n₂ h₂
      apply (ih h₂).bind h₂.ends
      intro es es' m₃ n₃ h₃ hes
      exact tracks_pure h₃ (by simp only [Expr.bareAll, he, hes])
    · apply (consumes_expect h₁ (by simp) ?_).tracks
      intro _ n₂ _ h₂
      exact tracks_pure h₂ (by simp only [Expr.bareAll, he])

theorem tracks_arguments (h : c.Trims cut d) :
    Tracks cut c d Expr.bareAll (arguments g) (arguments g') := by
  apply tracks_accept h (by simp)
  · intro n₁ h₁
    exact tracks_pure h₁ rfl
  · exact tracks_bounded fun _ _ => tracks_argumentList G h

theorem consumes_parenthesized (h : c.Trims cut d) :
    Consumes cut c d Expr.bare (parenthesized g start) (parenthesized g' start') := by
  apply (G.expression h).bind h.ends
  intro e e' m₁ n₁ h₁ he
  apply tracks_accept h₁ (by simp)
  · intro n₂ h₂
    exact tracks_node h₂ fun _ _ => by rw [Expr.bare_withSpan, Expr.bare_withSpan, he]
  · exact consumes_failHere.tracks

theorem consumes_functionExpression (h : c.Trims cut d) :
    Consumes cut c d Expr.bare (functionExpression g start) (functionExpression g' start') := by
  apply (tracks_optionalName h).bind_consumes h.ends
  rintro name _ m₁ n₁ h₁ rfl
  apply (consumes_functionRest G h₁).blame.bind h₁.ends
  intro f f' m₂ n₂ h₂ hf
  exact tracks_node h₂ fun _ _ => by simp only [Expr.bare, hf]

theorem consumes_primary (h : c.Trims cut d) :
    Consumes cut c d Expr.bare (primary g) (primary g') := by
  apply consumes_peek h
  intro t shape
  have hlexeme : c.next.lexeme = t.lexeme := (congrArg Shape.lexeme shape).symm
  rw [kind_eq_of_shape shape]
  split
  · rename_i hkind
    apply consumes_integerValue hlexeme
    intro value
    apply consumes_advance h (by simp [hkind])
    intro _ n₁ _ h₁
    exact tracks_pure h₁ rfl
  · apply consumes_advance h (by simp [*])
    intro _ n₁ _ h₁
    exact tracks_pure h₁ (by simp only [Expr.bare, hlexeme])
  · apply consumes_advance h (by simp [*])
    intro _ n₁ _ h₁
    exact tracks_pure h₁ (by simp only [Expr.bare, hlexeme])
  · apply consumes_advance h (by simp [*])
    intro _ n₁ _ h₁
    exact (consumes_parenthesized G h₁).tracks
  · apply consumes_advance h (by simp [*])
    intro _ n₁ _ h₁
    exact (consumes_functionExpression G h₁).tracks
  · rename_i hkind
    split
    · apply consumes_advance h (by simp [hkind])
      intro _ n₁ _ h₁
      exact tracks_pure h₁ rfl
    · exact consumes_failHere
  · rw [hlexeme]
    exact consumes_failHere
  · exact consumes_failHere

omit G in
theorem consumes_memberName {object object' : Expr} (hobject : object.bare = object'.bare)
    (h : c.Trims cut d) :
    Consumes cut c d Expr.bare (memberName object) (memberName object') := by
  apply consumes_peek h
  intro t shape
  have hlexeme : c.next.lexeme = t.lexeme := (congrArg Shape.lexeme shape).symm
  rw [kind_eq_of_shape shape]
  split
  · apply consumes_advance h (by simp [*])
    intro _ n₁ _ h₁
    exact tracks_pure h₁ (by simp only [Expr.bare, hobject, hlexeme])
  · apply consumes_advance h (by simp [*])
    intro _ n₁ _ h₁
    exact tracks_pure h₁ (by simp only [Expr.bare, hobject, hlexeme])
  · exact consumes_failHere

theorem tracksTurn_postfixTurn (start start' : Span) :
    TracksTurn cut (postfixTurn g start) (postfixTurn g' start') := by
  intro c d e e' h he
  apply tracks_nextKind h
  split
  · apply forks_advance h (by simp [*])
    intro n₁ h₁
    apply (consumes_memberName he h₁).tracks.bind h₁.ends
    intro access access' m₂ n₂ h₂ haccess
    exact tracks_pure h₂ (congrArg some haccess)
  · apply forks_advance h (by simp [*])
    intro n₁ h₁
    apply (tracks_arguments G h₁).blame.bind h₁.ends
    intro args args' m₂ n₂ h₂ hargs
    exact tracks_node h₂ fun _ _ => by simp only [Option.map_some, Expr.bare, he, hargs]
  · apply forks_advance h (by simp [*])
    intro n₁ h₁
    apply (G.expression h₁).tracks.bind h₁.ends
    intro index index' m₂ n₂ h₂ hindex
    apply tracks_accept h₂ (by simp)
    · intro n₃ h₃
      exact tracks_node h₃ fun _ _ => by simp only [Option.map_some, Expr.bare, he, hindex]
    · exact consumes_failHere.tracks
  · apply forks_advance h (by simp [*])
    intro n₁ h₁
    exact tracks_node h₁ fun _ _ => by simp only [Option.map_some, Expr.bare, he]
  · apply forks_advance h (by simp [*])
    intro n₁ h₁
    exact tracks_node h₁ fun _ _ => by simp only [Option.map_some, Expr.bare, he]
  · exact forks_self (tracks_pure h rfl) rfl rfl

theorem tracks_withPostfixes {e e' : Expr} (he : e.bare = e'.bare) (h : c.Trims cut d) :
    Tracks cut c d Expr.bare (withPostfixes g e) (withPostfixes g' e') := by
  apply tracks_bounded
  intro limit limit'
  rw [postfixes_eq, postfixes_eq]
  exact tracks_turns (tracksTurn_postfixTurn G _ _) h he

omit G in
theorem tracksTurn_member : TracksTurn cut memberTurn memberTurn := by
  intro c d e e' h he
  apply tracks_accept h (by simp)
  · intro n₁ h₁
    apply (consumes_memberName he h₁).tracks.bind h₁.ends
    intro access access' m₂ n₂ h₂ haccess
    exact tracks_pure h₂ (congrArg some haccess)
  · exact tracks_pure h rfl

/-- The callee of a construction and its arguments. -/
theorem consumes_constructed (h : c.Trims cut d) :
    Consumes cut c d Expr.bare (constructed g start) (constructed g' start') := by
  apply (consumes_primary G h).bind h.ends
  intro first first' m₁ n₁ h₁ hfirst
  have hchain : Tracks cut m₁ n₁ Expr.bare (bounded fun limit => memberChain limit first)
      (bounded fun limit => memberChain limit first') := by
    apply tracks_bounded
    intro limit limit'
    rw [memberChain_eq, memberChain_eq]
    exact tracks_turns tracksTurn_member h₁ hfirst
  apply hchain.bind h₁.ends
  intro callee callee' m₂ n₂ h₂ hcallee
  apply tracks_accept h₂ (by simp)
  · intro n₃ h₃
    apply (tracks_arguments G h₃).blame.bind h₃.ends
    intro args args' m₄ n₄ h₄ hargs
    exact tracks_node h₄ fun _ _ => by simp only [Expr.bare, hcallee, hargs]
  · exact consumes_failHere.tracks

theorem consumes_unary (h : c.Trims cut d) : Consumes cut c d Expr.bare (unary g) (unary g') := by
  apply consumes_peek h
  intro t shape
  rw [kind_eq_of_shape shape]
  split
  · rename_i op hop
    apply consumes_advance h (by rintro hkind; rw [hkind] at hop; cases hop)
    intro _ n₁ _ h₁
    apply (G.operand h₁).tracks.bind h₁.ends
    intro operand operand' m₂ n₂ h₂ hoperand
    exact tracks_pure h₂ (by simp only [Expr.bare, hoperand])
  · split
    · apply consumes_advance h (by simp [*])
      intro _ n₁ _ h₁
      rw [construction_eq, construction_eq]
      apply (consumes_constructed G h₁).tracks.bind h₁.ends
      intro e e' m₂ n₂ h₂ he
      exact tracks_withPostfixes G he h₂
    · apply (consumes_primary G h).bind h.ends
      intro first first' m₁ n₁ h₁ hfirst
      exact tracks_withPostfixes G hfirst h₁

/-! Binary operators. -/

/-- No operator of a level stands where a text may end. -/
def EndsAt (op? : TokenKind → Option BinaryOp) : Prop :=
  op? .eof = none ∧ op? .semicolon = none

omit G in
theorem binaryLevels_endsAt : ∀ op? ∈ binaryLevels, EndsAt op? := by
  simp [binaryLevels, EndsAt, multiplicativeOp?, additiveOp?, comparisonOp?, andOp?, orOp?]

omit G in
theorem tracksTurn_binary {operand operand' : Parser Expr} {op? : TokenKind → Option BinaryOp}
    (hop : EndsAt op?)
    (hoperand : ∀ {c d : Cursor}, c.Trims cut d →
      Consumes cut c d Expr.bare operand operand') :
    TracksTurn cut (binaryTurn operand op?) (binaryTurn operand' op?) := by
  intro c d e e' h he
  apply tracks_nextKind h
  cases hkind : op? c.next.kind with
  | none => exact forks_self (tracks_pure h rfl) (by rw [hop.1]) (by rw [hop.2])
  | some op =>
    apply Consumes.forks
    apply consumes_advance h (by rintro heof; rw [heof, hop.1] at hkind; cases hkind)
    intro _ n₁ _ h₁
    apply (hoperand h₁).tracks.bind h₁.ends
    intro right right' m₂ n₂ h₂ hright
    exact tracks_pure h₂ (by simp only [Option.map_some, Expr.bare, he, hright])

omit G in
theorem consumes_binaryLevel {operand operand' : Parser Expr} {op? : TokenKind → Option BinaryOp}
    (hop : EndsAt op?)
    (hoperand : ∀ {c d : Cursor}, c.Trims cut d → Consumes cut c d Expr.bare operand operand')
    (h : c.Trims cut d) :
    Consumes cut c d Expr.bare (binaryLevel operand op?) (binaryLevel operand' op?) := by
  apply (hoperand h).bind h.ends
  intro left left' m₁ n₁ h₁ hleft
  apply tracks_bounded
  intro limit limit'
  rw [binaryRest_eq, binaryRest_eq]
  exact tracks_turns (tracksTurn_binary hop hoperand) h₁ hleft

omit G in
theorem consumes_binaryLevels {levels : List (TokenKind → Option BinaryOp)}
    {operand operand' : Parser Expr} (hlevels : ∀ op? ∈ levels, EndsAt op?)
    (hoperand : ∀ {c d : Cursor}, c.Trims cut d → Consumes cut c d Expr.bare operand operand')
    (h : c.Trims cut d) :
    Consumes cut c d Expr.bare
      (levels.foldl binaryLevel operand) (levels.foldl binaryLevel operand') := by
  induction levels generalizing operand operand' with
  | nil => exact hoperand h
  | cons op? levels ih =>
    rw [List.forall_mem_cons] at hlevels
    exact ih hlevels.2 (consumes_binaryLevel hlevels.1 hoperand)

theorem consumes_assignment (h : c.Trims cut d) :
    Consumes cut c d Expr.bare (assignment g) (assignment g') := by
  apply (consumes_binaryLevels binaryLevels_endsAt (consumes_unary G) h).bind h.ends
  intro target target' m₁ n₁ h₁ htarget
  apply tracks_nextKind h₁
  cases hop : assignOp? m₁.next.kind with
  | none => exact forks_self (tracks_pure h₁ htarget) rfl rfl
  | some op =>
    apply Consumes.forks
    apply consumes_advance h₁ (by rintro heof; rw [heof] at hop; cases hop)
    intro _ n₂ _ h₂
    apply (G.expression h₂).tracks.bind h₂.ends
    intro value value' m₃ n₃ h₃ hvalue
    exact tracks_pure h₃ (by simp only [Expr.bare, htarget, hvalue])

/-! Statements. -/

theorem consumes_condition {openMessage closeMessage : String} (h : c.Trims cut d) :
    Consumes cut c d Expr.bare
      (condition g openMessage closeMessage) (condition g' openMessage closeMessage) := by
  apply consumes_expect h (by simp)
  intro _ n₁ _ h₁
  apply (G.expression h₁).tracks.bind h₁.ends
  intro value value' m₂ n₂ h₂ hvalue
  apply (consumes_expect h₂ (by simp) ?_).tracks
  intro _ n₃ _ h₃
  exact tracks_pure h₃ hvalue

theorem consumes_blockStatement (h : c.Trims cut d) :
    Consumes cut c d Stmt.bare (blockStatement g start) (blockStatement g' start') := by
  apply (consumes_block G h).bind h.ends
  intro content content' m₁ n₁ h₁ hcontent
  exact tracks_node h₁ fun _ _ => by simp only [Stmt.bare, hcontent]

omit G in
/-- Where an `else` is found, and how much is taken with it. -/
theorem acceptElse_eq {s : Stmt} {first second : TokenKind} (hfirst : c.next.kind = first)
    (hsecond : c.secondKind = second) :
    acceptElse s c =
      if first = .keyword .elseBranch then .ok true c.advance
      else if first = .semicolon ∧ second = .keyword .elseBranch ∧ s.requiresSemicolon = true then
        accept (.keyword .elseBranch) c.advance
      else .ok false c := by
  unfold Cursor.secondKind at hsecond
  simp only [acceptElse, bind, andThen, nextKind, secondKind]
  rw [hfirst, hsecond]
  split
  · simp [accept, hfirst]
  · cases s.requiresSemicolon with
    | true => rfl
    | false => simp [pure, result]
  · rename_i helse hbehind
    rw [if_neg helse, if_neg fun h => hbehind h.1 h.2.1]
    rfl

omit G in
/-- The token behind the next one, in both texts: they are the same, or the border is reached, and no
word stands there in the second text. -/
theorem secondKind_cases (h : c.Trims cut d) (hborder : c.left ≠ cut.border) :
    d.secondKind = c.secondKind ∨ c.advance.left = cut.border ∧
      d.secondKind ≠ .keyword .elseBranch ∧ d.secondKind ≠ .identifier := by
  have hc := Cursor.secondKind_eq h.ends
  cases h.joins with
  | ended left => exact absurd left hborder
  | same _ shape h₁ second =>
    rw [hc, second]
    cases h₁.joins with
    | ended left _ kind =>
      obtain kind | ⟨-, kind⟩ := kind
      · exact .inr ⟨left, by simp [kind], by simp [kind]⟩
      · exact .inr ⟨left, by simp [kind], by simp [kind]⟩
    | same _ shape => exact .inl (kind_eq_of_shape shape)

omit G in
/-- An `else` is taken in both texts or in none, unless it stands behind the border. -/
theorem tracks_acceptElse {s s' : Stmt} (hs : s.requiresSemicolon = s'.requiresSemicolon)
    (h : c.Trims cut d) : Tracks cut c d id (acceptElse s) (acceptElse s') := by
  by_cases helse : c.next.kind = .keyword .elseBranch
  · apply Consumes.tracks
    apply consumes_take (fun _ => pure true) (fun _ => pure true) h (by simp [helse])
    · rw [acceptElse_eq rfl rfl, if_pos helse]
      rfl
    · intro shape
      rw [acceptElse_eq rfl rfl, if_pos ((kind_eq_of_shape shape).trans helse)]
      rfl
    · intro _ n _ hn
      exact tracks_pure hn rfl
  by_cases hbehind : c.next.kind = .semicolon ∧ c.secondKind = .keyword .elseBranch ∧
      s.requiresSemicolon = true
  · have hkind : c.next.kind ≠ .eof := by simp [hbehind.1]
    have hreply : acceptElse s c = accept (.keyword .elseBranch) c.advance := by
      rw [acceptElse_eq rfl rfl, if_neg helse, if_pos hbehind]
    by_cases hnear : c.left = cut.border ∨ c.advance.left = cut.border
    · -- the `;` or the `else` is the first token behind the border
      apply tracks_of_past (by omega)
      intro taken m hok
      have hstep := (Cursor.advance_eq h.ends hkind).2
      have hnext := (Cursor.secondKind_eq h.ends).symm.trans hbehind.2.1
      have htwo := Cursor.left_advance h.ends.advance (by simp [hnext])
      rw [hreply, accept, if_pos hnext] at hok
      cases hok
      exact ⟨(Cursor.before_advance c).trans (Cursor.before_advance _), by omega⟩
    · apply Consumes.tracks
      apply consumes_take (fun _ => accept _) (fun _ => accept (.keyword .elseBranch)) h hkind hreply
      · intro shape
        have hsecond : d.secondKind = c.secondKind := by
          obtain hsecond | hsecond := secondKind_cases h (by omega)
          · exact hsecond
          · omega
        rw [acceptElse_eq (kind_eq_of_shape shape) hsecond, if_neg helse, if_pos]
        rwa [← hs]
      · intro _ n _ hn
        exact tracks_accept_pure hn (by simp)
  · have hreply : acceptElse s c = .ok false c := by
      rw [acceptElse_eq rfl rfl, if_neg helse, if_neg hbehind]
    have hreply' : acceptElse s' d = .ok false d := by
      cases h.joins with
      | ended _ _ kind second =>
        have helse' : d.next.kind ≠ .keyword .elseBranch := by
          obtain kind | ⟨-, kind⟩ := kind <;> simp [kind]
        rw [acceptElse_eq rfl rfl, if_neg helse', if_neg (by simp [second])]
      | same left shape =>
        rw [acceptElse_eq (kind_eq_of_shape shape) rfl, if_neg helse, if_neg]
        rintro ⟨hsemicolon, hsecond, hrequires⟩
        obtain heq | ⟨-, hnone, -⟩ := secondKind_cases h left
        · exact hbehind ⟨hsemicolon, heq ▸ hsecond, hs ▸ hrequires⟩
        · exact hnone hsecond
    exact (tracks_pure h rfl).congr hreply hreply'

theorem tracks_elseBranch {s s' : Stmt} (hs : s.requiresSemicolon = s'.requiresSemicolon)
    (h : c.Trims cut d) :
    Tracks cut c d (Option.map Stmt.bare) (elseBranch g s) (elseBranch g' s') := by
  apply (tracks_acceptElse hs h).bind h.ends
  rintro taken _ m₁ n₁ h₁ rfl
  cases taken with
  | true =>
    apply (G.statement h₁).tracks.bind h₁.ends
    intro branch branch' m₂ n₂ h₂ hbranch
    exact tracks_pure h₂ (congrArg some hbranch)
  | false => exact tracks_pure h₁ rfl

theorem consumes_ifStatement (h : c.Trims cut d) (hkind : c.next.kind ≠ .eof) :
    Consumes cut c d Stmt.bare (ifStatement g start) (ifStatement g' start') := by
  apply consumes_advance h hkind
  intro _ n₁ _ h₁
  apply (consumes_condition G h₁).tracks.bind h₁.ends
  intro test test' m₂ n₂ h₂ htest
  apply (G.statement h₂).tracks.bind h₂.ends
  intro thenBranch thenBranch' m₃ n₃ h₃ hthen
  have hrequires : thenBranch.requiresSemicolon = thenBranch'.requiresSemicolon := by
    rw [← Stmt.requiresSemicolon_bare, hthen, Stmt.requiresSemicolon_bare]
  apply (tracks_elseBranch G hrequires h₃).bind h₃.ends
  intro other other' m₄ n₄ h₄ hother
  apply tracks_spanFrom
  intro span span'
  apply tracks_pure h₄
  cases other with
  | none =>
    cases other' with
    | none => simp only [Stmt.bare, htest, hthen]
    | some other' => cases hother
  | some other =>
    cases other' with
    | none => cases hother
    | some other' =>
      simp only [Option.map_some, Option.some.injEq] at hother
      simp only [Stmt.bare, htest, hthen, hother]

theorem consumes_whileStatement (h : c.Trims cut d) (hkind : c.next.kind ≠ .eof) :
    Consumes cut c d Stmt.bare (whileStatement g start) (whileStatement g' start') := by
  apply consumes_advance h hkind
  intro _ n₁ _ h₁
  apply (consumes_condition G h₁).tracks.bind h₁.ends
  intro test test' m₂ n₂ h₂ htest
  apply (G.statement h₂).tracks.bind h₂.ends
  intro body body' m₃ n₃ h₃ hbody
  exact tracks_node h₃ fun _ _ => by simp only [Stmt.bare, htest, hbody]

theorem consumes_declarationRest {kind : DeclarationKind} (h : c.Trims cut d)
    (hkind : c.next.kind ≠ .eof) :
    Consumes cut c d Stmt.bare
      (declarationRest g kind start) (declarationRest g' kind start') := by
  apply consumes_advance h hkind
  intro _ n₁ _ h₁
  apply (consumes_expectName h₁).tracks.bind h₁.ends
  rintro name _ m₂ n₂ h₂ rfl
  apply tracks_nextKind h₂
  split
  case h_1 hassign =>
    apply forks_advance h₂ (by simp [*])
    intro n₃ h₃
    apply (G.expression h₃).tracks.bind h₃.ends
    intro init init' m₄ n₄ h₄ hinit
    exact tracks_node h₄ fun _ _ => by simp only [Stmt.bare, hinit, id_eq]
  case h_5 => exact consumes_failHere.forks
  -- a declaration without a value ends where a text may end
  all_goals
    refine forks_self ?_ rfl rfl
    cases kind with
    | constDecl => exact consumes_failHere.tracks
    | letDecl =>
      exact tracks_node h₂ fun _ _ => rfl

theorem consumes_expressionStatement (h : c.Trims cut d) :
    Consumes cut c d Stmt.bare (expressionStatement g) (expressionStatement g') := by
  apply (G.expression h).bind h.ends
  intro e e' m₁ n₁ h₁ he
  exact tracks_pure h₁ (by simp only [Stmt.bare, he])

theorem tracks_forInit (h : c.Trims cut d) :
    Tracks cut c d (Option.map Stmt.bare) (forInit g) (forInit g') := by
  apply tracks_location
  intro start start'
  apply tracks_nextKind h
  split
  · apply forks_advance h (by simp [*])
    intro n₁ h₁
    exact tracks_pure h₁ rfl
  · apply Consumes.forks
    dsimp only
    split
    case' h_1 => apply (consumes_declarationRest G h (by simp [*])).bind h.ends
    case' h_2 => apply (consumes_declarationRest G h (by simp [*])).bind h.ends
    case' h_3 => apply (consumes_expressionStatement G h).bind h.ends
    -- each of them ends with a `;`
    all_goals
      intro init init' m₁ n₁ h₁ hinit
      apply (consumes_expect h₁ (by simp) ?_).tracks
      intro _ n₂ _ h₂
      exact tracks_pure h₂ (congrArg some hinit)

theorem consumes_forClause {close : TokenKind} {message : String} (heof : close ≠ .eof)
    (h : c.Trims cut d) :
    Consumes cut c d (Option.map Expr.bare)
      (forClause g close message) (forClause g' close message) := by
  apply consumes_accept h heof
  · intro n₁ h₁
    exact tracks_pure h₁ rfl
  · apply (G.expression h).bind h.ends
    intro value value' m₁ n₁ h₁ hvalue
    apply (consumes_expect h₁ heof ?_).tracks
    intro _ n₂ _ h₂
    exact tracks_pure h₂ (congrArg some hvalue)

theorem consumes_forStatement (h : c.Trims cut d) (hkind : c.next.kind ≠ .eof) :
    Consumes cut c d Stmt.bare (forStatement g start) (forStatement g' start') := by
  apply consumes_advance h hkind
  intro _ n₁ _ h₁
  apply (consumes_expect h₁ (by simp) ?_).tracks
  intro _ n₂ _ h₂
  apply (tracks_forInit G h₂).bind h₂.ends
  intro init init' m₃ n₃ h₃ hinit
  apply (consumes_forClause G (by simp) h₃).tracks.bind h₃.ends
  intro test test' m₄ n₄ h₄ htest
  apply (consumes_forClause G (by simp) h₄).tracks.bind h₄.ends
  intro update update' m₅ n₅ h₅ hupdate
  apply (G.statement h₅).tracks.bind h₅.ends
  intro body body' m₆ n₆ h₆ hbody
  apply tracks_spanFrom
  intro span span'
  apply tracks_pure h₆
  rw [Stmt.bare_forLoop, Stmt.bare_forLoop, hinit, htest, hupdate, hbody]

theorem consumes_switchStatement (h : c.Trims cut d) (hkind : c.next.kind ≠ .eof) :
    Consumes cut c d Stmt.bare (switchStatement g start) (switchStatement g' start') := by
  apply consumes_advance h hkind
  intro _ n₁ _ h₁
  apply (consumes_condition G h₁).tracks.bind h₁.ends
  intro subject subject' m₂ n₂ h₂ hsubject
  apply tracks_nextKind h₂
  split
  · apply Consumes.forks
    apply (consumes_block G h₂).bind h₂.ends
    intro body body' m₃ n₃ h₃ hbody
    exact tracks_node h₃ fun _ _ => by simp only [Stmt.bare, hsubject, hbody]
  · exact consumes_failHere.forks

omit G in
/-- A `;` that may be left out. -/
theorem tracks_optionalSemicolon {needed : Bool} {p q : Parser Stmt} (h : c.Trims cut d)
    (hpq : ∀ m n, m.Trims cut n → Consumes cut m n Stmt.bare p q) :
    Tracks cut c d Stmt.bare (if needed then accept .semicolon >>= fun _ => p else p)
      (if needed then accept .semicolon >>= fun _ => q else q) := by
  split
  · exact (consumes_accept h (by simp) (fun n hn => (hpq _ n hn).tracks) (hpq c d h)).tracks
  · exact (hpq c d h).tracks

theorem consumes_tryStatement (h : c.Trims cut d) (hkind : c.next.kind ≠ .eof) :
    Consumes cut c d Stmt.bare (tryStatement g start) (tryStatement g' start') := by
  apply consumes_advance h hkind
  intro _ n₁ _ h₁
  apply (G.statement h₁).tracks.bind h₁.ends
  intro body body' m₂ n₂ h₂ hbody
  rw [← Stmt.requiresSemicolon_bare body, hbody, Stmt.requiresSemicolon_bare body']
  apply tracks_optionalSemicolon h₂
  intro m₃ n₃ h₃
  apply consumes_expect h₃ (by simp)
  intro _ n₄ _ h₄
  apply (consumes_expect h₄ (by simp) ?_).tracks
  intro _ n₅ _ h₅
  apply (consumes_expectName h₅).tracks.bind h₅.ends
  rintro binding _ m₆ n₆ h₆ rfl
  apply (consumes_expect h₆ (by simp) ?_).tracks
  intro _ n₇ _ h₇
  apply (G.statement h₇).tracks.bind h₇.ends
  intro handler handler' m₈ n₈ h₈ hhandler
  exact tracks_node h₈ fun _ _ => by simp only [Stmt.bare, hbody, hhandler, id_eq]

theorem consumes_throwStatement (h : c.Trims cut d) (hkind : c.next.kind ≠ .eof) :
    Consumes cut c d Stmt.bare (throwStatement g start) (throwStatement g' start') := by
  apply consumes_advance h hkind
  intro _ n₁ _ h₁
  apply (G.expression h₁).tracks.bind h₁.ends
  intro value value' m₂ n₂ h₂ hvalue
  exact tracks_node h₂ fun _ _ => by simp only [Stmt.bare, hvalue]

theorem consumes_returnStatement (h : c.Trims cut d) (hkind : c.next.kind ≠ .eof) :
    Consumes cut c d Stmt.bare (returnStatement g start) (returnStatement g' start') := by
  apply consumes_advance h hkind
  intro _ n₁ _ h₁
  apply tracks_nextKind h₁
  split
  · exact forks_self (tracks_pure h₁ rfl) rfl rfl
  · exact forks_self (tracks_pure h₁ rfl) rfl rfl
  · exact forks_self (tracks_pure h₁ rfl) rfl rfl
  · apply Consumes.forks
    apply (G.expression h₁).bind h₁.ends
    intro value value' m₂ n₂ h₂ hvalue
    exact tracks_node h₂ fun _ _ => by simp only [Stmt.bare, hvalue]

/-- A function with a name, behind its keyword. -/
theorem consumes_namedFunction (start start' : Span) (h : c.Trims cut d)
    (hkind : c.next.kind ≠ .eof) :
    Consumes cut c d Stmt.bare
      (do
        let token ← advance
        let definition ← functionRest g (some token.lexeme) start
        let span ← spanFrom start
        return Stmt.function span definition)
      (do
        let token ← advance
        let definition ← functionRest g' (some token.lexeme) start'
        let span ← spanFrom start'
        return Stmt.function span definition) := by
  apply consumes_advance h hkind
  intro t n₁ shape h₁
  have hlexeme : t.lexeme = c.next.lexeme := congrArg Shape.lexeme shape
  rw [hlexeme]
  apply (consumes_functionRest G h₁).tracks.bind h₁.ends
  intro f f' m₂ n₂ h₂ hf
  exact tracks_node h₂ fun _ _ => by simp only [Stmt.bare, hf]

omit G in
theorem secondKind_bind (p q : Parser Stmt) (c : Cursor) :
    (do
      match ← secondKind with
      | .identifier => p
      | _ => q : Parser Stmt) c = if c.secondKind = .identifier then p c else q c := by
  unfold Cursor.secondKind
  simp only [bind, andThen, secondKind]
  generalize (c.rest.head?.map (·.kind)).getD .eof = kind
  split
  · rw [if_pos rfl]
  · rename_i hname
    rw [if_neg hname]

/-- A function is a declaration if a name follows. The name may stand behind the border; then the
function does too. -/
theorem consumes_function (h : c.Trims cut d) (hkind : c.next.kind ≠ .eof) :
    Consumes cut c d Stmt.bare
      (do
        match ← secondKind with
        | .identifier => functionStatement g start
        | _ => expressionStatement g)
      (do
        match ← secondKind with
        | .identifier => functionStatement g' start'
        | _ => expressionStatement g') := by
  by_cases hname : c.secondKind = .identifier
  · have hnext : c.advance.next.kind ≠ .eof := by
      rw [← Cursor.secondKind_eq h.ends, hname]
      simp
    have hfunction : ∀ {d : Cursor}, c.Trims cut d → Consumes cut c d Stmt.bare
        (functionStatement g start) (functionStatement g' start') := by
      intro d h
      apply consumes_advance h hkind
      intro _ n₁ _ h₁
      exact (consumes_namedFunction G start start' h₁ hnext).tracks
    have hreply := (secondKind_bind (functionStatement g start) (expressionStatement g) c).trans
      (if_pos hname)
    have htakes := (hfunction h).takes
    rw [← hreply] at htakes
    refine ⟨?_, htakes⟩
    by_cases hnear : c.left = cut.border ∨ c.advance.left = cut.border
    · apply tracks_of_past (by omega)
      intro s m hok
      rw [hreply] at hok
      have hstep := (Cursor.advance_eq h.ends hkind).2
      obtain ⟨n₁, h₁⟩ := Cursor.exists_trims h.ends.advance cut
      have hinner := consumes_namedFunction G start start' h₁ hnext
      have hleft := hinner.takes s m hok
      exact ⟨((hfunction h).tracks.reads s m hok).1, by omega⟩
    · have hsecond : d.secondKind = .identifier := by
        obtain hsecond | hsecond := secondKind_cases h (by omega)
        · rw [hsecond, hname]
        · omega
      exact (hfunction h).tracks.congr hreply ((secondKind_bind _ _ d).trans (if_pos hsecond))
  · have hexpression := consumes_expressionStatement G h
    have hreply := (secondKind_bind (functionStatement g start) (expressionStatement g) c).trans
      (if_neg hname)
    have htakes := hexpression.takes
    rw [← hreply] at htakes
    refine ⟨?_, htakes⟩
    by_cases hborder : c.left = cut.border
    · exact (hexpression.tracks_of_border hborder).congr hreply rfl
    · have hsecond : d.secondKind ≠ .identifier := by
        obtain hsecond | ⟨-, -, hsecond⟩ := secondKind_cases h hborder
        · rwa [hsecond]
        · exact hsecond
      exact hexpression.tracks.congr hreply ((secondKind_bind _ _ d).trans (if_neg hsecond))

theorem consumes_statementOf (h : c.Trims cut d) :
    Consumes cut c d Stmt.bare (statementOf g start) (statementOf g' start') := by
  apply consumes_nextKind h
  by_cases hkind : c.next.kind = .eof
  · rw [hkind]
    exact consumes_expressionStatement G h
  split
  · exact consumes_blockStatement G h
  · exact consumes_ifStatement G h hkind
  · exact consumes_whileStatement G h hkind
  · exact consumes_forStatement G h hkind
  · exact consumes_switchStatement G h hkind
  · exact consumes_tryStatement G h hkind
  · exact consumes_throwStatement G h hkind
  · exact consumes_returnStatement G h hkind
  · apply consumes_advance h hkind
    intro _ n₁ _ h₁
    exact tracks_pure h₁ rfl
  · apply consumes_advance h hkind
    intro _ n₁ _ h₁
    exact tracks_pure h₁ rfl
  · exact consumes_declarationRest G h hkind
  · exact consumes_declarationRest G h hkind
  · exact consumes_function G h hkind
  · exact consumes_expressionStatement G h

theorem consumes_statement (h : c.Trims cut d) :
    Consumes cut c d Stmt.bare (statement g) (statement g') := by
  have hblame : Consumes cut c d Stmt.bare (blame c.next.span (statementOf g c.next.span))
      (blame d.next.span (statementOf g' d.next.span)) := (consumes_statementOf G h).blame
  exact ⟨hblame.tracks.congr rfl rfl, hblame.takes⟩

end

end Parser

/-- Whatever the border, what the grammar reads in front of it is read in the second text. The grammar
that reads the second text may run out of depth. -/
def Grammar.Tracked (g : Grammar) : Prop :=
  ∀ cut depth, g.Tracks cut (Grammar.ofDepth depth)

theorem Grammar.tracked_ofDepth (n : Nat) : (Grammar.ofDepth n).Tracked := by
  intro cut m
  induction n generalizing m with
  | zero =>
    exact ⟨fun _ => Parser.consumes_exhausted, fun _ => Parser.consumes_exhausted,
      fun _ => Parser.consumes_exhausted⟩
  | succ n ih =>
    have hsucc (m : Nat) : (Grammar.ofDepth (n + 1)).Tracks cut (Grammar.ofDepth (m + 1)) :=
      ⟨Parser.consumes_assignment (ih m), Parser.consumes_unary (ih m),
        Parser.consumes_statement (ih m)⟩
    constructor
    · intro c d h
      exact ⟨Parser.tracks_limit (fun m => (Grammar.ofDepth m).expression) rfl
        (fun m => ((hsucc m).expression h).tracks) m, ((hsucc 0).expression h).takes⟩
    · intro c d h
      exact ⟨Parser.tracks_limit (fun m => (Grammar.ofDepth m).operand) rfl
        (fun m => ((hsucc m).operand h).tracks) m, ((hsucc 0).operand h).takes⟩
    · intro c d h
      exact ⟨Parser.tracks_limit (fun m => (Grammar.ofDepth m).statement) rfl
        (fun m => ((hsucc m).statement h).tracks) m, ((hsucc 0).statement h).takes⟩

end Scripting
