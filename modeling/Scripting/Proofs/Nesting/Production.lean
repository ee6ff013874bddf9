import Scripting.Proofs.Nesting.Phrase

/-!
Every production reads a phrase from the tokens that its span covers, and the nodes inside it in a row
between them. An expression that it reads is read again from these tokens alone.
-/

namespace Scripting

/-- The expression that is read from `c` on stands where its span says. -/
abbrev Parser.LaysExpression (tokens : List Token) (c : Cursor) (p : Parser Expr) : Prop :=
  Cites c (fun e m => (Phrase.expression e).Stands tokens c m) p

abbrev Parser.LaysStatement (tokens : List Token) (c : Cursor) (p : Parser Stmt) : Prop :=
  Cites c (fun s m => (Phrase.statement s).Stands tokens c m) p

/-- What a grammar reads stands where its span says. -/
structure Grammar.Lays (tokens : List Token) (g : Grammar) : Prop where
  lined : Token.Lined tokens
  tracked : g.Tracked
  expression : ∀ {c : Cursor}, c.Inside tokens → Parser.LaysExpression tokens c g.expression
  operand : ∀ {c : Cursor}, c.Inside tokens → Parser.LaysExpression tokens c g.operand
  statement : ∀ {c : Cursor}, c.Inside tokens → Parser.LaysStatement tokens c g.statement

/-- The same expression with a wider span. -/
theorem Phrase.Placed.withSpan {tokens : List Token} {c d m m₂ : Cursor} {e : Expr} {span : Span}
    (h : (Phrase.expression e).Placed tokens d m) (hc : c.Inside tokens) (T : Token.Lined tokens)
    (hlead : c.Before d) (hm : m.Before m₂) (hcovers : c.Covers m₂ span) :
    (Phrase.expression (e.withSpan span)).Placed tokens c m₂ := by
  have hd := hlead.inside hc
  have hbefore := (hlead.trans h.before).trans hm
  have htakes : m₂.left < c.left := by
    have hfirst := hlead.left_le hc.ends
    have hlast := hm.left_le (h.before.inside hd).ends
    have htakes := h.takes
    omega
  have hspan : (Phrase.expression (e.withSpan span)).span = span := Expr.span_withSpan e span
  have hchildren : (Phrase.expression (e.withSpan span)).children = e.children :=
    Expr.children_withSpan e span
  have hwithin : e.span.Within span := by
    have hstart := hlead.start_le hc T
    have hstop := hm.last_le (h.before.inside hd)
    have hfrom : e.span.start = d.next.span.start := h.covers.start
    have hto : e.span.endOffset = m.last.endOffset := h.covers.stop
    rw [Span.Within, hcovers.start, hcovers.stop, hfrom, hto]
    exact ⟨hstart, hstop⟩
  refine ⟨hbefore, htakes, by rw [hspan]; exact hcovers, ⟨?_, ?_, ?_⟩, ?_⟩
  · rw [hspan]
    exact hcovers.framed hbefore hc T htakes
  · rw [hspan, hchildren]
    intro child hchild
    obtain ⟨hlow, hhigh⟩ := h.fits.holds child hchild
    exact ⟨Nat.le_trans hwithin.1 hlow, Nat.le_trans hhigh hwithin.2⟩
  · rw [hchildren]
    exact h.fits.ordered
  · rw [hchildren]
    exact h.children

namespace Parser

variable {tokens : List Token} {g : Grammar} {c m m₀ : Cursor} {start : Span}

/-! Names and labels hold no phrases. -/

theorem cites_caseLabel (hc : c.Inside tokens) : Cites c (fun _ _ => True) caseLabel :=
  cites_of_tracks hc.ends fun _ hd => tracks_caseLabel hd

theorem cites_paramList (hc : c.Inside tokens) : Cites c (fun _ _ => True) paramList :=
  cites_of_tracks hc.ends fun _ hd => tracks_paramList hd

theorem cites_optionalName (hc : c.Inside tokens) : Cites c (fun _ _ => True) optionalName :=
  cites_of_tracks hc.ends fun _ hd => tracks_optionalName hd

theorem cites_acceptElse {s : Stmt} (hc : c.Inside tokens) :
    Cites c (fun _ _ => True) (acceptElse s) :=
  cites_of_tracks hc.ends fun _ hd => tracks_acceptElse rfl hd

/-- A label, where there may be one. -/
theorem cites_label {β : Type} {Q : β → Cursor → Prop} {labels : Bool}
    {f : Option CaseLabel → Parser β} (hc : c.Inside tokens)
    (hf : ∀ label m, m.Inside tokens → c.Before m → Cites m Q (f label)) :
    Cites c Q (if labels then caseLabel >>= f else pure none >>= f) := by
  cases labels with
  | true =>
    apply (cites_caseLabel hc).bind hc
    intro label m hm hbefore _
    exact hf label m hm hbefore
  | false => exact hf none c hc (.refl c)

/-- One token is taken. -/
theorem cites_token {α : Type} {a : α} {Q : α → Cursor → Prop} (hc : c.Inside tokens)
    (h : Q a c.advance) : Cites c Q (do
      let _ ← advance
      return a) := by
  apply cites_advance hc
  intro _
  exact cites_pure h

/-- A `;` that may be left out. -/
theorem cites_optionalSemicolon {Q : Stmt → Cursor → Prop} {needed : Bool} {p : Parser Stmt}
    (hc : c.Inside tokens) (hp : ∀ m, m.Inside tokens → c.Before m → Cites m Q p) :
    Cites c Q (if needed then accept .semicolon >>= fun _ => p else p) := by
  split
  · exact cites_accept hc (fun hm => hp _ hm (Cursor.before_advance c)) (hp c hc (.refl c))
  · exact hp c hc (.refl c)

section

variable (T : Token.Lined tokens)
include T

/-- Two expressions with an operator between them. -/
theorem placed_pair {left right parent : Expr} {d m₂ : Cursor}
    (hleft : (Phrase.expression left).Stands tokens c m) (hc : c.Inside tokens)
    (hbetween : m.Before d) (hright : (Phrase.expression right).Stands tokens d m₂)
    (hspan : parent.span = left.span.join right.span)
    (hchildren : parent.children = [.expression left, .expression right]) :
    (Phrase.expression parent).Placed tokens c m₂ := by
  have hm := hleft.before.inside hc
  have hbefore := hbetween.trans hright.before
  have hrow : Row tokens c m₂ (Phrase.expression parent).children := by
    rw [Phrase.children, hchildren]
    exact .cons (.refl c) hleft (.cons hbetween hright (.nil (.refl m₂)))
  apply hrow.placed hc T
  · exact Nat.lt_of_le_of_lt (hbefore.left_le hm.ends) hleft.takes
  · rw [Phrase.span, hspan]
    exact hleft.covers.join hright.covers hm hbefore

/-- An access behind an expression that is read from `c` on. The cursor stands behind the `.`. -/
theorem lays_memberName {object : Expr} (hobject : (Phrase.expression object).Stands tokens c m)
    (hc : c.Inside tokens) :
    Cites m.advance (fun e m₂ => (Phrase.expression e).Placed tokens c m₂) (memberName object) := by
  have hm := hobject.before.inside hc
  have hbefore : m.Before m.advance.advance :=
    (Cursor.before_advance m).trans (Cursor.before_advance _)
  have hname (hkind : m.advance.next.kind ≠ .eof) :
      (Phrase.expression (.member (object.span.join m.advance.next.span) object
        m.advance.next.lexeme)).Placed tokens c m.advance.advance := by
    have hrow : Row tokens c m.advance.advance [.expression object] :=
      (Row.single hobject).trail hbefore
    apply hrow.placed hc T
    · exact Nat.lt_of_le_of_lt (hbefore.left_le hm.ends) hobject.takes
    · exact hobject.covers.join (Cursor.covers_next hm.ends.advance hkind) hm hbefore
  apply cites_peek
  split
  · exact cites_token hm.advance (hname (by simp [*]))
  · exact cites_token hm.advance (hname (by simp [*]))
  · exact cites_failHere

/-! Turns of the loops. -/

omit T in
/-- The invariant `S` of a loop says how the tokens up to a turn are read again. The turn makes a new
expression of the one that is read from `c` to `m`, or stops there. -/
theorem lays_turns {turn : Expr → Parser (Option Expr)} {S : Cursor → Expr → Prop} (m₀ : Cursor)
    (hc : c.Inside tokens) (hreads : ∀ {m e}, S m e → Reads c m e)
    (hstep : ∀ {m m₂ e e₂}, S m e → m₂.left ≤ m.left → turn e m = .ok (some e₂) m₂ → S m₂ e₂)
    (hturn : ∀ {m e}, m₀.Before m → (Phrase.expression e).Stands tokens c m →
      Cites m (fun next m₂ => next.elim (m₂ = m) fun e₂ => (Phrase.expression e₂).Placed tokens c m₂)
        (turn e))
    {limit : Nat} {e : Expr} (hbefore₀ : m₀.Before m) (hS : S m e)
    (he : (Phrase.expression e).Placed tokens c m) :
    Cites m (fun e' m' => (Phrase.expression e').Stands tokens c m') (turns turn limit e) := by
  induction limit generalizing m e with
  | zero => exact cites_failHere
  | succ limit ih =>
    have hstands := he.stands hc (hreads hS)
    intro e' m' hok
    obtain ⟨next, m₂, hnext, hrest⟩ := bind_eq_ok hok
    obtain ⟨hmore, hcont⟩ := hturn hbefore₀ hstands next m₂ hnext
    cases next with
    | none =>
      obtain rfl : m₂ = m := hcont
      cases hrest
      exact ⟨hmore, hstands⟩
    | some e₂ =>
      have hS₂ := hstep hS (hmore.left_le (he.before.inside hc).ends) hnext
      obtain ⟨hlast, hresult⟩ := ih (hbefore₀.trans hmore) hS₂ hcont e' m' hrest
      exact ⟨hmore.trans hlast, hresult⟩

/-- A statement that opens with a keyword, once the row behind the keyword is read. -/
theorem cites_opened {node : Span → Stmt} (hc : c.Inside tokens) (hkind : c.next.kind ≠ .eof)
    (hrow : Row tokens c.advance m (node (c.next.span.join m.last)).children)
    (hspan : Stmt.span ∘ node = id) :
    Cites m (fun s m => (Phrase.statement s).Stands tokens c m) (do
      let span ← spanFrom c.next.span
      return node span) := by
  apply cites_spanFrom
  apply cites_pure
  exact ⟨Row.opened (hrow.lead (Cursor.before_advance c)) hc T hkind hrow.before (congrFun hspan _), trivial⟩

end

section

variable (G : g.Lays tokens)
include G

/-! Blocks and functions. -/

theorem lays_items {labels : Bool} {limit : Nat} (hc : c.Inside tokens) :
    Cites c (fun items m => Row tokens c m (Item.phrases items)) (items g labels limit) := by
  induction limit generalizing c with
  | zero => exact cites_failHere
  | succ limit ih =>
    -- the cursor stands behind the statement, or behind the `;` that ends it
    have hrest {s : Stmt} {label : Option CaseLabel} {d m₁ m : Cursor} (hlead : c.Before d)
        (hs : (Phrase.statement s).Stands tokens d m₁) (hnext : m₁.Before m)
        (hm : m.Inside tokens) :
        Cites m (fun items m => Row tokens c m (Item.phrases items)) (do
          let rest ← items g labels limit
          return .mk label s :: rest) := by
      apply (ih hm).bind hm
      intro rest m₂ _ _ hrest
      exact cites_pure (.cons hlead hs (hrest.lead hnext))
    have hskip := Cursor.before_skipSemicolons c
    apply cites_skipSemicolons hc
    intro hc₁
    apply cites_nextKind
    split
    · exact cites_token hc₁ (.nil (hskip.trans (Cursor.before_advance _)))
    · exact cites_failHere
    · apply cites_label hc₁
      intro label m₂ hm₂ hlabel
      have hlead := hskip.trans hlabel
      apply (G.statement hm₂).bind hm₂
      intro s m₃ hm₃ _ hs
      split
      · apply cites_nextKind
        split
        · apply cites_advance hm₃
          intro hm₄
          exact hrest hlead hs (Cursor.before_advance _) hm₄
        · exact cites_token hm₃ (.cons hlead hs (.nil (Cursor.before_advance _)))
        · exact cites_failHere
      · exact hrest hlead hs (.refl _) hm₃

theorem lays_block {labels : Bool} (hc : c.Inside tokens) :
    Cites c (fun items m => c.advance.Before m ∧ Row tokens c m (Item.phrases items))
      (block g labels) := by
  apply cites_expect hc
  intro hc₁ items m hok
  obtain ⟨hbefore, hitems⟩ := lays_items G hc₁ items m hok
  exact ⟨hbefore, hbefore, hitems.lead (Cursor.before_advance c)⟩

/-- The function starts with the keyword at `c`, and the cursor stands behind its name. -/
theorem lays_functionRest {name : Option String} (hc : c.Inside tokens) (hkind : c.next.kind ≠ .eof)
    (hm : c.advance.Before m) :
    Cites m (fun definition m₂ => (Phrase.function definition).Stands tokens c m₂)
      (functionRest g name c.next.span) := by
  have hm₁ := hm.inside hc.advance
  apply cites_expect hm₁
  intro hm₂
  apply (cites_paramList hm₂).bind hm₂
  intro names m₃ hm₃ hnames _
  apply cites_nextKind
  split
  · apply (lays_block G hm₃).bind hm₃
    rintro body m₄ _ hbody ⟨-, hrow⟩
    have hlead := (hm.trans (Cursor.before_advance m)).trans hnames
    apply cites_spanFrom
    apply cites_pure
    exact ⟨Row.opened (hrow.lead ((Cursor.before_advance c).trans hlead)) hc G.lined hkind
      (hlead.trans hbody) rfl, trivial⟩
  · exact cites_failHere

/-! Operands. -/

theorem lays_argumentList {limit : Nat} (hc : c.Inside tokens) :
    Cites c (fun args m => Row tokens c m (args.map .expression)) (argumentList g limit) := by
  induction limit generalizing c with
  | zero => exact cites_failHere
  | succ limit ih =>
    apply (G.expression hc).bind hc
    intro e m₁ hm₁ _ he
    apply cites_accept hm₁
    · intro hm₂
      apply (ih hm₂).bind hm₂
      intro es m₃ _ _ hes
      exact cites_pure (.cons (.refl c) he (hes.lead (Cursor.before_advance m₁)))
    · apply cites_expect hm₁
      intro _
      exact cites_pure ((Row.single he).trail (Cursor.before_advance m₁))

theorem lays_arguments (hc : c.Inside tokens) :
    Cites c (fun args m => Row tokens c m (args.map .expression)) (arguments g) := by
  apply cites_accept hc
  · intro _
    exact cites_pure (.nil (Cursor.before_advance c))
  · exact cites_bounded fun _ => lays_argumentList G hc

/-- The cursor stands behind the opening parenthesis. -/
theorem lays_parenthesized (hc : c.Inside tokens) (hkind : c.next.kind ≠ .eof) :
    Cites c.advance (fun e m => (Phrase.expression e).Placed tokens c m)
      (parenthesized g c.next.span) := by
  have hadvance := Cursor.before_advance c
  apply (G.expression hc.advance).bind hc.advance
  intro inner m₁ hm₁ hbefore₁ hinner
  apply cites_accept hm₁
  · intro _
    have hclose := Cursor.before_advance m₁
    apply cites_spanFrom
    apply cites_pure
    apply hinner.toPlaced.withSpan hc G.lined hadvance hclose
    exact Cursor.covers_joinLast hc hkind (hbefore₁.trans hclose)
  · exact cites_failHere

/-- The cursor stands behind the keyword. -/
theorem lays_functionExpression (hc : c.Inside tokens) (hkind : c.next.kind ≠ .eof) :
    Cites c.advance (fun e m => (Phrase.expression e).Placed tokens c m)
      (functionExpression g c.next.span) := by
  apply (cites_optionalName hc.advance).bind hc.advance
  intro name m₁ hm₁ hbefore₁ _
  apply (lays_functionRest G hc hkind hbefore₁).blame.bind hm₁
  intro definition m₂ _ hbefore₂ hdefinition
  apply cites_spanFrom
  apply cites_pure
  exact Row.opened (Row.single hdefinition) hc G.lined hkind (hbefore₁.trans hbefore₂) rfl

/-- A primary is an operand, if nothing follows it. -/
theorem lays_primary (hc : c.Inside tokens) :
    Cites c (fun e m => (Phrase.expression e).Placed tokens c m ∧ Operates c m e) (primary g) := by
  have hleaf {e : Expr} (hkind : c.next.kind ≠ .eof) (hspan : e.span = c.next.span)
      (hchildren : e.children = []) :=
    cites_token (a := e) (Q := fun e m => (Phrase.expression e).Placed tokens c m) hc
      (Phrase.placed_token hc G.lined hkind hspan hchildren)
  have hplaced : Cites c (fun e m => (Phrase.expression e).Placed tokens c m) (primary g) := by
    apply cites_peek
    split
    · unfold integerValue
      split
      · rw [pure_bind]
        exact hleaf (by simp [*]) rfl rfl
      · exact fun _ _ h => nomatch h
    · exact hleaf (by simp [*]) rfl rfl
    · exact hleaf (by simp [*]) rfl rfl
    · apply cites_advance hc
      intro _
      exact lays_parenthesized G hc (by simp [*])
    · apply cites_advance hc
      intro _
      exact lays_functionExpression G hc (by simp [*])
    · split
      · exact hleaf (by simp [*]) rfl rfl
      · exact cites_failHere
    · exact cites_failHere
    · exact cites_failHere
  intro e m hok
  obtain ⟨hbefore, he⟩ := hplaced e m hok
  exact ⟨hbefore, he, operates_primary G.tracked hok⟩

/-- One operator behind an operand. The span `start` ends at `m₀`. -/
theorem lays_postfixTurn {e : Expr} (hc : c.Inside tokens) (hm₀ : m₀.Inside tokens)
    (hstart : c.Covers m₀ start) (hbefore₀ : m₀.Before m)
    (he : (Phrase.expression e).Stands tokens c m) :
    Cites m (fun next m₂ => next.elim (m₂ = m) fun e₂ => (Phrase.expression e₂).Placed tokens c m₂)
      (postfixTurn g start e) := by
  have hm := he.before.inside hc
  have hadvance := Cursor.before_advance m
  -- what follows the operand stands in a row behind it
  have hparent {parent : Expr} {more : List Phrase} {m₂ : Cursor} (hmore : Row tokens m m₂ more)
      (hchildren : parent.children = .expression e :: more)
      (hspan : parent.span = start.join m₂.last) :
      (Phrase.expression parent).Placed tokens c m₂ := by
    have hrow : Row tokens c m₂ (Phrase.expression parent).children := by
      rw [Phrase.children, hchildren]
      exact .cons (.refl c) he hmore
    apply hrow.placed hc G.lined
    · exact Nat.lt_of_le_of_lt (hmore.before.left_le hm.ends) he.takes
    · rw [Phrase.span, hspan]
      exact hstart.joinLast hm₀ (hbefore₀.trans hmore.before)
  apply cites_nextKind
  split
  · apply cites_advance hm
    intro hm₁
    apply (lays_memberName G.lined he hc).bind hm₁
    intro access m₂ _ _ haccess
    exact cites_pure haccess
  · apply cites_advance hm
    intro hm₁
    apply (lays_arguments G hm₁).blame.bind hm₁
    intro args m₂ _ _ hargs
    apply cites_spanFrom
    exact cites_pure (hparent (hargs.lead hadvance) rfl rfl)
  · apply cites_advance hm
    intro hm₁
    apply (G.expression hm₁).bind hm₁
    intro index m₂ hm₂ _ hindex
    apply cites_accept hm₂
    · intro _
      have hrow := ((Row.single hindex).lead hadvance).trail (Cursor.before_advance m₂)
      apply cites_spanFrom
      exact cites_pure (hparent hrow rfl rfl)
    · exact cites_failHere
  · apply cites_advance hm
    intro _
    apply cites_spanFrom
    exact cites_pure (hparent (.nil hadvance) rfl rfl)
  · apply cites_advance hm
    intro _
    apply cites_spanFrom
    exact cites_pure (hparent (.nil hadvance) rfl rfl)
  · exact cites_pure rfl

theorem lays_withPostfixes {e : Expr} (hc : c.Inside tokens)
    (he : (Phrase.expression e).Placed tokens c m) (hoperates : Operates c m e) :
    Cites m (fun e' m' => (Phrase.expression e').Stands tokens c m') (withPostfixes g e) := by
  rw [withPostfixes_eq]
  apply cites_bounded
  intro limit
  apply lays_turns m hc Operates.reads _ _ (.refl m) hoperates he
  · intro m m₂ e e₂ h hle hok
    exact h.turn G.tracked _ hle hok
  · exact lays_postfixTurn G hc (he.before.inside hc) he.covers

/-- The accesses behind `new` are read as those behind an operand are. -/
theorem lays_memberChain {limit : Nat} {e : Expr} (hc : c.Inside tokens)
    (he : (Phrase.expression e).Placed tokens c m) (hoperates : Operates c m e) :
    Cites m (fun e' m' => (Phrase.expression e').Stands tokens c m') (memberChain limit e) := by
  rw [memberChain_eq]
  apply lays_turns m hc Operates.reads _ _ (.refl m) hoperates he
  · intro m m₂ e e₂ h hle hok
    exact h.turn G.tracked {} hle (postfixTurn_of_memberTurn hok)
  · intro m e _ he
    apply cites_accept (he.before.inside hc)
    · intro hm₁
      apply (lays_memberName G.lined he hc).bind hm₁
      intro access m₂ _ _ haccess
      exact cites_pure haccess
    · exact cites_pure rfl

/-- The cursor stands behind `new`. -/
theorem lays_constructed (hc : c.Inside tokens) (hkind : c.next.kind ≠ .eof) :
    Cites c.advance (fun e m => (Phrase.expression e).Placed tokens c m)
      (constructed g c.next.span) := by
  have hc₁ := hc.advance
  apply (lays_primary G hc₁).bind hc₁
  rintro first m₁ hm₁ _ ⟨hfirst, hoperates⟩
  apply Cites.bind hm₁ (cites_bounded fun _ => lays_memberChain G hc₁ hfirst hoperates)
  intro callee m₂ hm₂ _ hcallee
  apply cites_accept hm₂
  · intro hm₃
    apply (lays_arguments G hm₃).blame.bind hm₃
    intro args m₄ _ _ hargs
    have hrow : Row tokens c.advance m₄ (.expression callee :: args.map .expression) :=
      .cons (.refl _) hcallee (hargs.lead (Cursor.before_advance m₂))
    apply cites_spanFrom
    apply cites_pure
    exact Row.opened (hrow.lead (Cursor.before_advance c)) hc G.lined hkind hrow.before rfl
  · exact cites_failHere

theorem lays_unary (hc : c.Inside tokens) : LaysExpression tokens c (unary g) := by
  have hplaced : Cites c (fun e m => (Phrase.expression e).Placed tokens c m) (unary g) := by
    apply cites_peek
    split
    · rename_i op hop
      have hkind : c.next.kind ≠ .eof := by
        intro heof
        rw [heof] at hop
        cases hop
      apply cites_advance hc
      intro hc₁
      apply (G.operand hc₁).bind hc₁
      intro operand m₂ _ hbefore₂ hoperand
      apply cites_pure
      have hrow : Row tokens c m₂ [.expression operand] :=
        (Row.single hoperand).lead (Cursor.before_advance c)
      apply hrow.placed hc G.lined (hbefore₂.left_lt hc.ends hkind)
      exact (Cursor.covers_next hc.ends hkind).join hoperand.covers hc₁ hbefore₂
    · split
      · rename_i hnew
        apply cites_advance hc
        intro hc₁
        rw [construction_eq]
        intro e' m' hok
        obtain ⟨e, m, hfirst, hrest⟩ := bind_eq_ok hok
        obtain ⟨hbefore, he⟩ := lays_constructed G hc (by simp [hnew]) e m hfirst
        have hoperates := operates_constructed G.tracked hnew hfirst
        obtain ⟨hmore, hresult⟩ := lays_withPostfixes G hc he hoperates e' m' hrest
        exact ⟨hbefore.trans hmore, hresult.toPlaced⟩
      · apply (lays_primary G hc).bind hc
        rintro first m₁ _ _ ⟨hfirst, hoperates⟩
        intro e' m' hok
        obtain ⟨hmore, hresult⟩ := lays_withPostfixes G hc hfirst hoperates e' m' hok
        exact ⟨hmore, hresult.toPlaced⟩
  intro e m hok
  obtain ⟨hbefore, he⟩ := hplaced e m hok
  refine ⟨hbefore, he.stands hc (reads_of_unary (recovers_of_tracks ?_ hok))⟩
  intro d depth hd
  exact (consumes_unary (G.tracked _ depth) hd).tracks

/-! Binary operators. -/

theorem lays_binaryLevel {tighter looser : List (TokenKind → Option BinaryOp)}
    {op? : TokenKind → Option BinaryOp} (hlevels : binaryLevels = tighter ++ op? :: looser)
    (hoperand : ∀ {c : Cursor}, c.Inside tokens →
      LaysExpression tokens c (tighter.foldl binaryLevel (unary g)))
    (hc : c.Inside tokens) :
    LaysExpression tokens c (binaryLevel (tighter.foldl binaryLevel (unary g)) op?) := by
  intro e' m' hok
  obtain ⟨left, m, hfirst, hrest⟩ := bind_eq_ok hok
  obtain ⟨hbefore, hleft⟩ := hoperand hc left m hfirst
  have haccumulates := accumulates_operand hlevels G.tracked hfirst
  have hturns : Cites m (fun e m => (Phrase.expression e).Stands tokens c m)
      (binaryRest (tighter.foldl binaryLevel (unary g)) op? (m.left + 1) left) := by
    rw [binaryRest_eq]
    apply lays_turns m hc (Accumulates.reads hlevels) _ _ (.refl m) haccumulates hleft.toPlaced
    · intro m m₂ e e₂ h hle hok
      exact h.turn hlevels G.tracked hle hok
    · intro m e _ he
      have hm := he.before.inside hc
      apply cites_nextKind
      split
      · exact cites_pure rfl
      · apply cites_advance hm
        intro hm₁
        apply (hoperand hm₁).bind hm₁
        intro right m₂ _ _ hright
        exact cites_pure (placed_pair G.lined he hc (Cursor.before_advance m) hright rfl rfl)
  obtain ⟨hmore, hresult⟩ := hturns e' m' hrest
  exact ⟨hbefore.trans hmore, hresult⟩

/-- The levels from the tightest on. -/
theorem lays_binaryLevels {tighter looser : List (TokenKind → Option BinaryOp)}
    (hlevels : binaryLevels = tighter ++ looser)
    (hoperand : ∀ {c : Cursor}, c.Inside tokens →
      LaysExpression tokens c (tighter.foldl binaryLevel (unary g)))
    (hc : c.Inside tokens) :
    LaysExpression tokens c (binaryLevels.foldl binaryLevel (unary g)) := by
  induction looser generalizing tighter with
  | nil =>
    rw [hlevels, List.append_nil]
    exact hoperand hc
  | cons op? looser ih =>
    have hnext : binaryLevels = (tighter ++ [op?]) ++ looser := by simp [hlevels]
    apply ih hnext
    intro c hc
    simp only [List.foldl_append, List.foldl_cons, List.foldl_nil]
    exact lays_binaryLevel G hlevels hoperand hc

theorem lays_assignment (hc : c.Inside tokens) : LaysExpression tokens c (assignment g) := by
  have hplaced : Cites c (fun e m => (Phrase.expression e).Placed tokens c m) (assignment g) := by
    apply (lays_binaryLevels G (List.nil_append binaryLevels).symm (lays_unary G) hc).bind hc
    intro target m₁ hm₁ _ htarget
    apply cites_nextKind
    split
    · exact cites_pure htarget.toPlaced
    · apply cites_advance hm₁
      intro hm₂
      apply (G.expression hm₂).bind hm₂
      intro value m₃ _ _ hvalue
      exact cites_pure (placed_pair G.lined htarget hc (Cursor.before_advance m₁) hvalue rfl rfl)
  intro e m hok
  obtain ⟨hbefore, he⟩ := hplaced e m hok
  refine ⟨hbefore, he.stands hc (recovers_of_tracks ?_ hok)⟩
  intro d depth hd
  exact (consumes_assignment (G.tracked _ depth) hd).tracks

/-! Statements. -/

theorem lays_condition {openMessage closeMessage : String} (hc : c.Inside tokens) :
    Cites c (fun e m => Row tokens c m [.expression e]) (condition g openMessage closeMessage) := by
  apply cites_expect hc
  intro hc₁
  apply (G.expression hc₁).bind hc₁
  intro value m₂ hm₂ _ hvalue
  apply cites_expect hm₂
  intro _
  exact cites_pure
    (((Row.single hvalue).lead (Cursor.before_advance c)).trail (Cursor.before_advance m₂))

theorem lays_elseBranch {s : Stmt} (hc : c.Inside tokens) :
    Cites c (fun other m => Row tokens c m (other.toList.map .statement)) (elseBranch g s) := by
  apply (cites_acceptElse hc).bind hc
  intro taken m₁ hm₁ hbefore₁ _
  split
  · apply (G.statement hm₁).bind hm₁
    intro branch m₂ _ _ hbranch
    exact cites_pure ((Row.single hbranch).lead hbefore₁)
  · exact cites_pure (.nil hbefore₁)

theorem lays_blockStatement (hc : c.Inside tokens) (hkind : c.next.kind ≠ .eof) :
    LaysStatement tokens c (blockStatement g c.next.span) := by
  apply (lays_block G hc).bind hc
  rintro content m₁ _ _ ⟨hbefore, hrow⟩
  apply cites_spanFrom
  apply cites_pure
  exact ⟨Row.opened hrow hc G.lined hkind hbefore rfl, trivial⟩

theorem lays_ifStatement (hc : c.Inside tokens) (hkind : c.next.kind ≠ .eof) :
    LaysStatement tokens c (ifStatement g c.next.span) := by
  apply cites_advance hc
  intro hc₁
  apply (lays_condition G hc₁).bind hc₁
  intro test m₂ hm₂ _ htest
  apply (G.statement hm₂).bind hm₂
  intro thenBranch m₃ hm₃ _ hthen
  apply (lays_elseBranch G hm₃).bind hm₃
  intro other m₄ _ _ hother
  exact cites_opened G.lined hc hkind (htest.append (.cons (.refl _) hthen hother)) rfl

theorem lays_whileStatement (hc : c.Inside tokens) (hkind : c.next.kind ≠ .eof) :
    LaysStatement tokens c (whileStatement g c.next.span) := by
  apply cites_advance hc
  intro hc₁
  apply (lays_condition G hc₁).bind hc₁
  intro test m₂ hm₂ _ htest
  apply (G.statement hm₂).bind hm₂
  intro body m₃ _ _ hbody
  exact cites_opened G.lined hc hkind (htest.append (.single hbody)) rfl

theorem lays_declarationRest {kind : DeclarationKind} (hc : c.Inside tokens)
    (hkind : c.next.kind ≠ .eof) : LaysStatement tokens c (declarationRest g kind c.next.span) := by
  have hadvance := Cursor.before_advance c.advance
  apply cites_advance hc
  intro hc₁
  apply cites_expectName hc₁
  intro name hc₂
  apply cites_nextKind
  split
  case h_1 =>
    apply cites_advance hc₂
    intro hc₃
    apply (G.expression hc₃).bind hc₃
    intro init m₄ _ _ hinit
    have hrow := (Row.single hinit).lead (hadvance.trans (Cursor.before_advance _))
    exact cites_opened G.lined hc hkind hrow rfl
  case h_5 => exact cites_failHere
  -- the declaration ends here
  all_goals
    cases kind with
    | constDecl => exact cites_failHere
    | letDecl =>
      exact cites_opened G.lined hc hkind (.nil hadvance) rfl

theorem lays_expressionStatement (hc : c.Inside tokens) :
    LaysStatement tokens c (expressionStatement g) := by
  apply (G.expression hc).bind hc
  intro e m₁ _ _ he
  apply cites_pure
  exact ⟨Row.placed (Row.single he) hc G.lined he.takes he.covers, trivial⟩

theorem lays_forInit (hc : c.Inside tokens) :
    Cites c (fun init m => Row tokens c m (init.toList.map .statement)) (forInit g) := by
  apply cites_location
  apply cites_nextKind
  split
  · exact cites_token hc (.nil (Cursor.before_advance c))
  · split
    case' h_1 => apply (lays_declarationRest G hc (by simp [*])).bind hc
    case' h_2 => apply (lays_declarationRest G hc (by simp [*])).bind hc
    case' h_3 => apply (lays_expressionStatement G hc).bind hc
    -- each of them ends with a `;`
    all_goals
      intro init m₁ hm₁ _ hinit
      apply cites_expect hm₁
      intro _
      exact cites_pure ((Row.single hinit).trail (Cursor.before_advance m₁))

theorem lays_forClause {close : TokenKind} {message : String} (hc : c.Inside tokens) :
    Cites c (fun e m => Row tokens c m (e.toList.map .expression)) (forClause g close message) := by
  apply cites_accept hc
  · intro _
    exact cites_pure (.nil (Cursor.before_advance c))
  · apply (G.expression hc).bind hc
    intro value m₁ hm₁ _ hvalue
    apply cites_expect hm₁
    intro _
    exact cites_pure ((Row.single hvalue).trail (Cursor.before_advance m₁))

theorem lays_forStatement (hc : c.Inside tokens) (hkind : c.next.kind ≠ .eof) :
    LaysStatement tokens c (forStatement g c.next.span) := by
  apply cites_advance hc
  intro hc₁
  apply cites_expect hc₁
  intro hc₂
  apply (lays_forInit G hc₂).bind hc₂
  intro init m₃ hm₃ _ hinit
  apply (lays_forClause G hm₃).bind hm₃
  intro test m₄ hm₄ _ htest
  apply (lays_forClause G hm₄).bind hm₄
  intro update m₅ hm₅ _ hupdate
  apply (G.statement hm₅).bind hm₅
  intro body m₆ _ _ hbody
  have hrow := ((hinit.append htest).append hupdate).append (.single hbody)
  exact cites_opened G.lined hc hkind (hrow.lead (Cursor.before_advance _)) rfl

theorem lays_switchStatement (hc : c.Inside tokens) (hkind : c.next.kind ≠ .eof) :
    LaysStatement tokens c (switchStatement g c.next.span) := by
  apply cites_advance hc
  intro hc₁
  apply (lays_condition G hc₁).bind hc₁
  intro subject m₂ hm₂ _ hsubject
  apply cites_nextKind
  split
  · apply (lays_block G hm₂).bind hm₂
    rintro body m₃ _ _ ⟨-, hbody⟩
    exact cites_opened G.lined hc hkind (hsubject.append hbody) rfl
  · exact cites_failHere

theorem lays_tryStatement (hc : c.Inside tokens) (hkind : c.next.kind ≠ .eof) :
    LaysStatement tokens c (tryStatement g c.next.span) := by
  apply cites_advance hc
  intro hc₁
  apply (G.statement hc₁).bind hc₁
  intro body m₂ hm₂ _ hbody
  apply cites_optionalSemicolon hm₂
  intro m₃ hm₃ hsemicolon
  apply cites_expect hm₃
  intro hm₄
  apply cites_expect hm₄
  intro hm₅
  apply cites_expectName hm₅
  intro binding hm₆
  apply cites_expect hm₆
  intro hm₇
  apply (G.statement hm₇).bind hm₇
  intro handler m₈ _ _ hhandler
  have hlead : m₃.Before m₃.advance.advance.advance.advance := ⟨4, rfl⟩
  have hrow := (Row.single hhandler).lead (hsemicolon.trans hlead)
  exact cites_opened G.lined hc hkind ((Row.single hbody).append hrow) rfl

theorem lays_throwStatement (hc : c.Inside tokens) (hkind : c.next.kind ≠ .eof) :
    LaysStatement tokens c (throwStatement g c.next.span) := by
  apply cites_advance hc
  intro hc₁
  apply (G.expression hc₁).bind hc₁
  intro value m₂ _ _ hvalue
  exact cites_opened G.lined hc hkind (.single hvalue) rfl

theorem lays_returnStatement (hc : c.Inside tokens) (hkind : c.next.kind ≠ .eof) :
    LaysStatement tokens c (returnStatement g c.next.span) := by
  have hbare : (Phrase.statement (.returnValue c.next.span none)).Stands tokens c c.advance :=
    ⟨Phrase.placed_token hc G.lined hkind rfl rfl, trivial⟩
  apply cites_advance hc
  intro hc₁
  apply cites_nextKind
  split
  · exact cites_pure hbare
  · exact cites_pure hbare
  · exact cites_pure hbare
  · apply (G.expression hc₁).bind hc₁
    intro value m₂ _ _ hvalue
    exact cites_opened G.lined hc hkind (.single hvalue) rfl

theorem lays_functionStatement (hc : c.Inside tokens) (hkind : c.next.kind ≠ .eof) :
    LaysStatement tokens c (functionStatement g c.next.span) := by
  have hname := Cursor.before_advance c.advance
  apply cites_advance hc
  intro hc₁
  apply cites_advance hc₁
  intro hc₂
  apply (lays_functionRest G hc hkind hname).bind hc₂
  intro definition m₃ _ hbefore₃ hdefinition
  apply cites_spanFrom
  apply cites_pure
  exact ⟨Row.opened (Row.single hdefinition) hc G.lined hkind (hname.trans hbefore₃) rfl, trivial⟩

theorem lays_statement (hc : c.Inside tokens) : LaysStatement tokens c (statement g) := by
  change Cites c _ (blame c.next.span (statementOf g c.next.span))
  apply Cites.blame
  apply cites_nextKind
  by_cases hkind : c.next.kind = .eof
  · rw [hkind]
    exact lays_expressionStatement G hc
  split
  · exact lays_blockStatement G hc hkind
  · exact lays_ifStatement G hc hkind
  · exact lays_whileStatement G hc hkind
  · exact lays_forStatement G hc hkind
  · exact lays_switchStatement G hc hkind
  · exact lays_tryStatement G hc hkind
  · exact lays_throwStatement G hc hkind
  · exact lays_returnStatement G hc hkind
  · exact cites_token hc ⟨Phrase.placed_token hc G.lined hkind rfl rfl, trivial⟩
  · exact cites_token hc ⟨Phrase.placed_token hc G.lined hkind rfl rfl, trivial⟩
  · exact lays_declarationRest G hc hkind
  · exact lays_declarationRest G hc hkind
  · apply cites_secondKind
    split
    · exact lays_functionStatement G hc hkind
    · exact lays_expressionStatement G hc
  · exact lays_expressionStatement G hc

end

end Parser

theorem Grammar.lays_ofDepth {tokens : List Token} (T : Token.Lined tokens) (n : Nat) :
    (Grammar.ofDepth n).Lays tokens := by
  induction n with
  | zero =>
    exact ⟨T, Grammar.tracked_ofDepth 0, fun _ => Parser.cites_failHere,
      fun _ => Parser.cites_failHere, fun _ => Parser.cites_failHere⟩
  | succ n ih =>
    exact ⟨T, Grammar.tracked_ofDepth (n + 1), Parser.lays_assignment ih, Parser.lays_unary ih,
      Parser.lays_statement ih⟩

namespace Parser

variable {tokens : List Token} {g : Grammar} {c : Cursor}

/-- The statements of a program stand in a row, also if reading stops at an error: the node of the
error then covers the first token of what cannot be read. -/
theorem exists_row_programFrom (G : g.Lays tokens)
    (hfail : ∀ {c failure stop}, g.statement c = .fail failure stop → failure.span = c.next.span)
    {limit : Nat} (hc : c.Inside tokens) :
    ∃ m, Row tokens c m ((programFrom g limit c).1.statements.map .statement) := by
  induction limit generalizing c with
  | zero => exact ⟨c, .nil (.refl c)⟩
  | succ limit ih =>
    have hbefore := Cursor.before_skipSemicolons c
    have hskip := hbefore.inside hc
    simp only [programFrom]
    split
    · exact ⟨c, .nil (.refl c)⟩
    rename_i hkind
    cases hreply : g.statement c.skipSemicolons with
    | fail failure stop =>
      have hstands : (Phrase.statement (.error failure.span failure.errors)).Stands tokens
          c.skipSemicolons c.skipSemicolons.advance :=
        ⟨Phrase.placed_token hskip G.lined hkind (hfail hreply) rfl, trivial⟩
      exact ⟨_, (Row.single hstands).lead hbefore⟩
    | ok s m =>
      obtain ⟨hmore, hs⟩ := G.statement hskip s m hreply
      dsimp only
      split
      · exact ⟨m, (Row.single hs).lead hbefore⟩
      · obtain ⟨stop, hrest⟩ := ih (hmore.inside hskip)
        exact ⟨stop, .cons hbefore hs hrest⟩

end Parser

/-- The node of an error covers the first token of the statement that could not be read. -/
theorem Grammar.span_of_statement_fail {n : Nat} {c stop : Cursor} {failure : Failure}
    (h : (Grammar.ofDepth n).statement c = .fail failure stop) : failure.span = c.next.span := by
  cases n with
  | zero =>
    cases h
    rfl
  | succ n =>
    change Parser.blame c.next.span (Parser.statementOf (Grammar.ofDepth n) c.next.span) c = _ at h
    rw [Parser.blame] at h
    split at h
    · cases h
    · cases h
      rfl

/-- The statements of a program stand in a row. -/
theorem Parser.exists_row_program {source : String} {tokens : List Token}
    (h : tokenize source = .ok tokens) :
    ∃ m, Row tokens (Cursor.ofTokens tokens) m ((program tokens).1.statements.map .statement) :=
  exists_row_programFrom (Grammar.lays_ofDepth (Token.lined_tokenize h) _)
    Grammar.span_of_statement_fail (Cursor.inside_ofTokens h)

end Scripting
