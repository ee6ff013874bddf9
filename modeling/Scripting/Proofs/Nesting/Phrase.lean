import Scripting.Proofs.Excerpt.Citation
import Scripting.Proofs.Tiling

/-!
The nodes of a tree with their spans, and rows of nodes between two places among the tokens.

A phrase is a node that has a span: an expression, a statement, or a function. The parts of a phrase
that is read from tokens stand behind each other among these tokens. Such a row of phrases is built up
by the productions, and what the spans have to satisfy follows from it once (`Row.placed`). Of an
expression it is also known that the tokens it is read from are read as this expression again.
-/

namespace Scripting

variable {phrase : Phrase} {tokens : List Token}

/-- A node of a tree that has a span. -/
inductive Phrase where
  | expression (e : Expr)
  | statement (s : Stmt)
  | function (definition : FunctionDef)

/-- The nodes directly inside an expression, in the order of the source. -/
def Expr.children : Expr → List Phrase
  | .member _ object _ => [.expression object]
  | .call _ callee args | .construct _ callee args =>
    .expression callee :: args.map .expression
  | .subscript _ object index => [.expression object, .expression index]
  | .unary _ _ operand => [.expression operand]
  | .binary _ _ left right => [.expression left, .expression right]
  | .assign _ _ target value => [.expression target, .expression value]
  | .function _ definition => [.function definition]
  | .integer .. | .string .. | .identifier .. | .special .. | .error .. => []

/-- The statements of the items of a block. -/
def Item.phrases (items : List Item) : List Phrase :=
  items.map fun item => .statement item.statement

/-- The nodes directly inside a statement, in the order of the source. -/
def Stmt.children : Stmt → List Phrase
  | .expression _ e | .throwValue _ e => [.expression e]
  | .block _ items => Item.phrases items
  | .ifElse _ condition thenBranch elseBranch =>
    .expression condition :: .statement thenBranch :: elseBranch.toList.map .statement
  | .whileLoop _ condition body => [.expression condition, .statement body]
  | .forLoop _ init condition update body =>
    init.toList.map .statement ++ condition.toList.map .expression ++
      update.toList.map .expression ++ [.statement body]
  | .switch _ subject items => .expression subject :: Item.phrases items
  | .tryCatch _ body _ handler => [.statement body, .statement handler]
  | .returnValue _ value => value.toList.map .expression
  | .declare _ _ _ init => init.toList.map .expression
  | .function _ definition => [.function definition]
  | .breakLoop _ | .continueLoop _ | .error .. => []

namespace Phrase

def span : Phrase → Span
  | expression e => e.span
  | statement s => s.span
  | function definition => definition.span

/-- The nodes directly inside a phrase, in the order of the source. -/
def children : Phrase → List Phrase
  | expression e => e.children
  | statement s => s.children
  | function definition => Item.phrases definition.body

end Phrase

/-- The nodes of a program, at any depth. -/
inductive Program.Contains (p : Program) : Phrase → Prop where
  | statement {s : Stmt} (h : s ∈ p.statements) : Contains p (.statement s)
  | child {phrase child : Phrase} (h : Contains p phrase) (hchild : child ∈ phrase.children) :
      Contains p child

/-- The expressions of a phrase, at any depth. -/
def Phrase.nodes : Phrase → List Expr
  | expression e => e.nodes
  | statement s => s.nodes
  | function definition => definition.nodes

theorem Expr.nodesAll_eq (es : List Expr) : Expr.nodesAll es = es.flatMap Expr.nodes := by
  induction es with
  | nil => rfl
  | cons e rest ih => simp [Expr.nodesAll, Expr.nodes, ih]

theorem Item.nodesAll_eq (items : List Item) :
    Item.nodesAll items = items.flatMap (·.statement.nodes) := by
  induction items with
  | nil => rfl
  | cons item rest ih =>
    obtain ⟨label, statement⟩ := item
    simp [Item.nodesAll, Item.statement, ih]

theorem Expr.inner_eq (e : Expr) : e.inner = e.children.flatMap Phrase.nodes := by
  cases e with
  | call span callee args | construct span callee args =>
    rw [Expr.inner, Expr.nodesAll_eq, Expr.children, List.flatMap_cons, List.flatMap_map]
    rfl
  | _ => simp [Expr.inner, Expr.children, Phrase.nodes, Expr.nodes]

theorem Stmt.nodes_eq (s : Stmt) : s.nodes = s.children.flatMap Phrase.nodes := by
  cases s with
  | ifElse span condition thenBranch elseBranch =>
    cases elseBranch <;> simp [Stmt.nodes, Stmt.children, Phrase.nodes, Expr.nodes]
  | forLoop span init condition update body =>
    cases init <;> cases condition <;> cases update <;>
      simp [Stmt.nodes, Stmt.children, Phrase.nodes, Expr.nodes]
  | returnValue span value | declare span kind name value =>
    cases value <;> simp [Stmt.nodes, Stmt.children, Phrase.nodes, Expr.nodes]
  | _ =>
    simp [Stmt.nodes, Stmt.children, Phrase.nodes, Expr.nodes, Item.phrases, Item.nodesAll_eq,
      List.flatMap_map]

/-- An expression inside a phrase is the phrase, or inside one of the nodes directly inside. -/
theorem Phrase.mem_nodes {e : Expr} (h : e ∈ phrase.nodes) :
    phrase = .expression e ∨ ∃ child ∈ phrase.children, e ∈ child.nodes := by
  cases phrase with
  | expression e' =>
    obtain rfl | h := List.mem_cons.1 h
    · exact .inl rfl
    · rw [Expr.inner_eq] at h
      exact .inr (List.mem_flatMap.1 h)
  | statement s =>
    rw [Phrase.nodes, Stmt.nodes_eq] at h
    exact .inr (List.mem_flatMap.1 h)
  | function definition =>
    obtain ⟨name, span, params, body⟩ := definition
    rw [Phrase.nodes, FunctionDef.nodes, Item.nodesAll_eq] at h
    obtain ⟨item, hitem, h⟩ := List.mem_flatMap.1 h
    exact .inr ⟨.statement item.statement, List.mem_map_of_mem hitem, h⟩

theorem Expr.children_withSpan (e : Expr) (span : Span) :
    (e.withSpan span).children = e.children := by
  cases e <;> rfl

/-! Spans and tokens. -/

namespace Span

/-- The span lies inside another one. -/
def Within (s outer : Span) : Prop :=
  outer.start.offset ≤ s.start.offset ∧ s.endOffset ≤ outer.endOffset

/-- The span ends before another one starts. -/
def Precedes (s other : Span) : Prop :=
  s.endOffset ≤ other.start.offset

/-- The span starts with a token and ends with a token, and covers some text. -/
structure Framed (tokens : List Token) (s : Span) : Prop where
  starts : ∃ t ∈ tokens, s.start = t.span.start
  stops : ∃ t ∈ tokens, s.endOffset = t.span.endOffset
  covers : s.start.offset < s.endOffset

end Span

/-- The spans around a phrase are as they should be: its own starts and ends with a token and holds
those of the nodes directly inside, which come one behind the other. -/
structure Phrase.Fits (tokens : List Token) (phrase : Phrase) : Prop where
  framed : phrase.span.Framed tokens
  holds : ∀ child ∈ phrase.children, child.span.Within phrase.span
  ordered : phrase.children.Pairwise fun child other => child.span.Precedes other.span

/-- What the span of an expression covers is read as the expression. -/
def Phrase.Cited (tokens : List Token) : Phrase → Prop
  | expression e => e.Cited tokens
  | statement _ | function _ => True

/-- The spans fit and expressions are cited, at every depth. -/
inductive Phrase.Nested (tokens : List Token) : Phrase → Prop where
  | mk {phrase : Phrase} (fits : phrase.Fits tokens) (cited : phrase.Cited tokens)
      (children : ∀ child ∈ phrase.children, Nested tokens child) : Nested tokens phrase

theorem Phrase.Nested.cited_of_mem (h : phrase.Nested tokens) :
    ∀ e ∈ phrase.nodes, e.Cited tokens := by
  induction h with
  | mk fits cited children ih =>
    intro e he
    obtain rfl | ⟨child, hchild, he⟩ := Phrase.mem_nodes he
    · exact cited
    · exact ih child hchild e he

/-- Tokens that stand behind each other, each of them except `eof` on some text. -/
structure Token.Lined (tokens : List Token) : Prop where
  ordered : tokens.Pairwise fun t u =>
    t.span.start.offset < u.span.start.offset ∧ t.span.endOffset ≤ u.span.start.offset
  nonempty : ∀ t ∈ tokens, t.kind ≠ .eof → t.span.start.offset < t.span.endOffset

theorem Scans.nonempty {before text : List Char} {result : Except Diagnostic (List Token)}
    (h : Scans before text result) :
    ∀ tokens, result = .ok tokens →
      ∀ t ∈ tokens, t.kind ≠ .eof → t.span.start.offset < t.span.endOffset := by
  induction h with
  | ended gap =>
    rintro _ ⟨⟩ t ht hkind
    rw [List.mem_singleton] at ht
    exact absurd (congrArg Token.kind ht) hkind
  | unterminated => exact nofun
  | @token _ _ _ _ piece result _ _ longest _ ih =>
    intro tokens h
    cases result with
    | error d => cases h
    | ok more =>
      cases h
      intro t ht hkind
      rcases List.mem_cons.1 ht with rfl | ht
      · have hpos := byteLength_pos longest.written_ne_nil
        simp only [Lexeme.token, Span.endOffset]
        omega
      · exact ih more rfl t ht hkind

theorem Token.lined_tokenize {source : String} (h : tokenize source = .ok tokens) :
    Token.Lined tokens :=
  ⟨((scans_tokenize source).tiling tokens h).ordered, (scans_tokenize source).nonempty tokens h⟩

namespace Cursor

variable {c d m : Cursor}

/-- The tokens of a source end in the order of the source. -/
theorem inside_ofTokens {source : String} (h : tokenize source = .ok tokens) :
    (ofTokens tokens).Inside tokens := by
  have hends := endsOnce_tokensFrom h
  refine ⟨indexes_ofTokens hends, ends_ofTokens hends, ?_⟩
  have htiling := (scans_tokenize source).tiling tokens h
  have hsorted : (tokens.map (·.span.endOffset)).Pairwise (· ≤ ·) := by
    rw [List.pairwise_map]
    apply htiling.ordered.imp
    intro t u htu
    have hend : u.span.endOffset = u.span.start.offset + u.span.length := rfl
    omega
  cases tokens with
  | nil => exact absurd hends id
  | cons t rest =>
    refine List.pairwise_cons.2 ⟨?_, hsorted⟩
    intro stop hstop
    obtain rfl | hstop := List.mem_cons.1 hstop
    · exact Nat.le_refl _
    · exact (List.pairwise_cons.1 hsorted).1 stop hstop

/-- The next token is one of the tokens. -/
theorem Inside.next_mem (hc : c.Inside tokens) : c.next ∈ tokens :=
  (indexes_iff.1 hc.indexes).subset (List.mem_cons_self ..)

theorem Inside.pairwise (hc : c.Inside tokens) (T : Token.Lined tokens) :
    (c.next :: c.rest).Pairwise fun t u =>
      t.span.start.offset < u.span.start.offset ∧ t.span.endOffset ≤ u.span.start.offset :=
  T.ordered.sublist (indexes_iff.1 hc.indexes).sublist

/-- Tokens start in the order in which they are taken. -/
theorem Before.start_le (hd : c.Before d) (hc : c.Inside tokens) (T : Token.Lined tokens) :
    c.next.span.start.offset ≤ d.next.span.start.offset := by
  obtain ⟨count, rfl⟩ := hd
  induction count generalizing c with
  | zero => exact Nat.le_refl _
  | succ count ih =>
    have hstep : c.next.span.start.offset ≤ c.advance.next.span.start.offset := by
      by_cases hkind : c.next.kind = .eof
      · rw [advance_of_eof hkind]
      · have hpairs := hc.pairwise T
        rw [(advance_eq hc.ends hkind).1] at hpairs
        exact Nat.le_of_lt ((List.pairwise_cons.1 hpairs).1 _ (List.mem_cons_self ..)).1
    exact Nat.le_trans hstep (ih hc.advance)

theorem Before.left_lt (hm : c.advance.Before m) (hc : c.Ends) (hkind : c.next.kind ≠ .eof) :
    m.left < c.left := by
  have hle := hm.left_le hc.advance
  have hlt := left_advance hc hkind
  omega

/-- Where some tokens are taken, the last of them is one of the tokens. It covers text from the first
one on, and ends in front of the next one. -/
theorem Before.exists_last (hm : c.Before m) (hc : c.Inside tokens) (T : Token.Lined tokens)
    (hleft : m.left < c.left) :
    ∃ t ∈ tokens, m.last = t.span ∧ c.next.span.start.offset < t.span.endOffset ∧
      t.span.endOffset ≤ m.next.span.start.offset := by
  obtain ⟨count, rfl⟩ := hm
  induction count generalizing c with
  | zero => exact absurd hleft (Nat.lt_irrefl _)
  | succ count ih =>
    have hkind := kind_ne_eof_of_left hc.ends (by omega)
    have hmore : c.advance.Before (c.advance.drop count) := ⟨count, rfl⟩
    have hpairs := hc.pairwise T
    rw [(advance_eq hc.ends hkind).1] at hpairs
    have hnext := (List.pairwise_cons.1 hpairs).1 _ (List.mem_cons_self ..)
    rw [drop] at hleft ⊢
    by_cases hone : (c.advance.drop count).left = c.advance.left
    · rw [hmore.eq_of_left hc.ends.advance hone, last_advance hc.ends hkind]
      exact ⟨c.next, hc.next_mem, rfl, T.nonempty _ hc.next_mem hkind, hnext.2⟩
    · have hle := hmore.left_le hc.ends.advance
      obtain ⟨t, ht, hlast, hlt, hstop⟩ := ih hc.advance (by omega)
      exact ⟨t, ht, hlast, Nat.lt_trans hnext.1 hlt, hstop⟩

/-- The tokens from `c` to `m` give a span that covers them. -/
theorem covers_joinLast (hc : c.Inside tokens) (hkind : c.next.kind ≠ .eof)
    (hm : c.advance.Before m) : c.Covers m (c.next.span.join m.last) :=
  (covers_next hc.ends hkind).joinLast hc.advance hm

theorem Covers.framed {span : Span} (h : c.Covers m span) (hm : c.Before m) (hc : c.Inside tokens)
    (T : Token.Lined tokens) (hleft : m.left < c.left) : span.Framed tokens := by
  obtain ⟨t, ht, hlast, hlt, -⟩ := hm.exists_last hc T hleft
  constructor
  · exact ⟨c.next, hc.next_mem, h.start⟩
  · exact ⟨t, ht, by rw [h.stop, hlast]⟩
  · rw [h.start, h.stop, hlast]
    exact hlt

end Cursor

/-! Rows of phrases. -/

/-- The phrase is made of the tokens from `c` to `m`, with the nodes inside it between them. -/
structure Phrase.Placed (tokens : List Token) (c m : Cursor) (phrase : Phrase) : Prop where
  before : c.Before m
  takes : m.left < c.left
  covers : c.Covers m phrase.span
  fits : phrase.Fits tokens
  children : ∀ child ∈ phrase.children, child.Nested tokens

/-- The phrase is read from the tokens from `c` to `m`. -/
structure Phrase.Stands (tokens : List Token) (c m : Cursor) (phrase : Phrase) : Prop
    extends phrase.Placed tokens c m where
  cited : phrase.Cited tokens

theorem Phrase.Stands.nested {c m : Cursor} (h : phrase.Stands tokens c m) : phrase.Nested tokens :=
  .mk h.fits h.cited h.children

theorem Phrase.Placed.stands {c m : Cursor} {e : Expr} (h : (Phrase.expression e).Placed tokens c m)
    (hc : c.Inside tokens) (hreads : Parser.Reads c m e) :
    (Phrase.expression e).Stands tokens c m :=
  ⟨h, c, m, hc, h.before, h.covers, hreads⟩

/-- The phrases are read one behind the other between `c` and `m`, with other tokens around them. -/
inductive Row (tokens : List Token) : Cursor → Cursor → List Phrase → Prop where
  | nil {c m : Cursor} (h : c.Before m) : Row tokens c m []
  | cons {c d m m₂ : Cursor} {phrase : Phrase} {phrases : List Phrase} (hlead : c.Before d)
      (first : phrase.Stands tokens d m) (rest : Row tokens m m₂ phrases) :
      Row tokens c m₂ (phrase :: phrases)

namespace Row

variable {c d m m₂ : Cursor} {phrases more : List Phrase}

theorem before (h : Row tokens c m phrases) : c.Before m := by
  induction h with
  | nil h => exact h
  | cons hlead first _ ih => exact (hlead.trans first.before).trans ih

theorem single (h : phrase.Stands tokens c m) : Row tokens c m [phrase] :=
  .cons (.refl c) h (.nil (.refl m))

theorem lead (hd : c.Before d) (h : Row tokens d m phrases) : Row tokens c m phrases := by
  cases h with
  | nil h => exact .nil (hd.trans h)
  | cons hlead first rest => exact .cons (hd.trans hlead) first rest

theorem trail (h : Row tokens c m phrases) (hm : m.Before m₂) : Row tokens c m₂ phrases := by
  induction h with
  | nil h => exact .nil (h.trans hm)
  | cons hlead first _ ih => exact .cons hlead first (ih hm)

theorem append (h : Row tokens c m phrases) (hmore : Row tokens m m₂ more) :
    Row tokens c m₂ (phrases ++ more) := by
  induction h with
  | nil h => exact hmore.lead h
  | cons hlead first _ ih => exact .cons hlead first (ih hmore)

theorem nested (h : Row tokens c m phrases) : ∀ phrase ∈ phrases, phrase.Nested tokens := by
  induction h with
  | nil => exact nofun
  | cons _ first _ ih => exact List.forall_mem_cons.2 ⟨first.nested, ih⟩

/-- The phrases lie between the next token of `c` and the last one of `m`. -/
theorem bounds (h : Row tokens c m phrases) (hc : c.Inside tokens) (T : Token.Lined tokens) :
    ∀ phrase ∈ phrases, c.next.span.start.offset ≤ phrase.span.start.offset ∧
      phrase.span.endOffset ≤ m.last.endOffset := by
  induction h with
  | nil => exact nofun
  | @cons c d m m₂ first phrases hlead hfirst hrest ih =>
    have hd := hlead.inside hc
    have hm := hfirst.before.inside hd
    have hstart := hlead.start_le hc T
    refine List.forall_mem_cons.2 ⟨⟨?_, ?_⟩, ?_⟩
    · rw [hfirst.covers.start]
      exact hstart
    · rw [hfirst.covers.stop]
      exact hrest.before.last_le hm
    · intro phrase hphrase
      obtain ⟨hlow, hhigh⟩ := ih hm phrase hphrase
      have hbetween := hfirst.before.start_le hd T
      exact ⟨by omega, hhigh⟩

theorem ordered (h : Row tokens c m phrases) (hc : c.Inside tokens) (T : Token.Lined tokens) :
    phrases.Pairwise fun phrase other => phrase.span.Precedes other.span := by
  induction h with
  | nil => exact .nil
  | @cons c d m m₂ first phrases hlead hfirst hrest ih =>
    have hd := hlead.inside hc
    have hm := hfirst.before.inside hd
    refine List.pairwise_cons.2 ⟨?_, ih hm⟩
    intro other hother
    -- the last token of the first phrase ends in front of the token behind it
    obtain ⟨t, -, hlast, -, hstop⟩ := hfirst.before.exists_last hd T hfirst.takes
    have hlow := (hrest.bounds hm T other hother).1
    rw [Span.Precedes, hfirst.covers.stop, hlast]
    omega

/-- A phrase has its place where its span covers the row of the nodes inside it. -/
theorem placed (h : Row tokens c m phrase.children) (hc : c.Inside tokens) (T : Token.Lined tokens)
    (htakes : m.left < c.left) (hcovers : c.Covers m phrase.span) : phrase.Placed tokens c m := by
  refine ⟨h.before, htakes, hcovers, ⟨?_, ?_, h.ordered hc T⟩, h.nested⟩
  · exact hcovers.framed h.before hc T htakes
  · intro child hchild
    obtain ⟨hlow, hhigh⟩ := h.bounds hc T child hchild
    exact ⟨by rw [hcovers.start]; exact hlow, by rw [hcovers.stop]; exact hhigh⟩

/-- A phrase that opens with a token of its own. -/
theorem opened (h : Row tokens c m phrase.children) (hc : c.Inside tokens) (T : Token.Lined tokens)
    (hkind : c.next.kind ≠ .eof) (hm : c.advance.Before m)
    (hspan : phrase.span = c.next.span.join m.last) : phrase.Placed tokens c m := by
  apply h.placed hc T (hm.left_lt hc.ends hkind)
  rw [hspan]
  exact Cursor.covers_joinLast hc hkind hm

end Row

/-- A phrase of one token. -/
theorem Phrase.placed_token {c : Cursor} (hc : c.Inside tokens) (T : Token.Lined tokens)
    (hkind : c.next.kind ≠ .eof) (hspan : phrase.span = c.next.span)
    (hchildren : phrase.children = []) : phrase.Placed tokens c c.advance := by
  have hrow : Row tokens c c.advance phrase.children := by
    rw [hchildren]
    exact .nil (Cursor.before_advance c)
  apply hrow.placed hc T (Cursor.left_advance hc.ends hkind)
  rw [hspan]
  exact Cursor.covers_next hc.ends hkind

theorem Phrase.Nested.fits (h : phrase.Nested tokens) : phrase.Fits tokens := by
  cases h with
  | mk fits => exact fits

theorem Program.Contains.nested {p : Program} (h : p.Contains phrase)
    (hp : ∀ s ∈ p.statements, (Phrase.statement s).Nested tokens) : phrase.Nested tokens := by
  induction h with
  | statement h => exact hp _ h
  | child _ hchild ih =>
    cases ih with
    | mk _ _ hchildren => exact hchildren _ hchild

end Scripting
