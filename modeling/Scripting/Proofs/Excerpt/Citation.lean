import Scripting.Proofs.Excerpt.Recovery
import Scripting.Proofs.Progress

/-!
The expressions of a tree, and where they stand among the tokens.

An expression is cited if it is read from the tokens that its span covers. The rules say what parsers
make of cited expressions.
-/

namespace Scripting

/-! The expressions of a tree. -/

mutual

/-- The expressions inside an expression, at any depth. -/
def Expr.inner : Expr → List Expr
  | .integer .. | .string .. | .identifier .. | .special .. | .error .. => []
  | .member _ object _ => object :: object.inner
  | .call _ callee args => callee :: callee.inner ++ Expr.nodesAll args
  | .subscript _ object index => object :: object.inner ++ index :: index.inner
  | .construct _ callee args => callee :: callee.inner ++ Expr.nodesAll args
  | .unary _ _ operand => operand :: operand.inner
  | .binary _ _ left right => left :: left.inner ++ right :: right.inner
  | .assign _ _ target value => target :: target.inner ++ value :: value.inner
  | .function _ definition => definition.nodes

def Expr.nodesAll : List Expr → List Expr
  | [] => []
  | e :: rest => e :: e.inner ++ Expr.nodesAll rest

def FunctionDef.nodes : FunctionDef → List Expr
  | .mk _ _ _ body => Item.nodesAll body

def Item.nodesAll : List Item → List Expr
  | [] => []
  | .mk _ statement :: rest => statement.nodes ++ Item.nodesAll rest

/-- The expressions of a statement, at any depth. -/
def Stmt.nodes : Stmt → List Expr
  | .expression _ e => e :: e.inner
  | .block _ items => Item.nodesAll items
  | .ifElse _ condition thenBranch elseBranch =>
    condition :: condition.inner ++ thenBranch.nodes ++
      (match elseBranch with | some branch => branch.nodes | none => [])
  | .whileLoop _ condition body => condition :: condition.inner ++ body.nodes
  | .forLoop _ init condition update body =>
    (match init with | some clause => clause.nodes | none => []) ++
      (match condition with | some e => e :: e.inner | none => []) ++
      (match update with | some e => e :: e.inner | none => []) ++ body.nodes
  | .switch _ subject items => subject :: subject.inner ++ Item.nodesAll items
  | .tryCatch _ body _ handler => body.nodes ++ handler.nodes
  | .throwValue _ value => value :: value.inner
  | .returnValue _ value => (match value with | some e => e :: e.inner | none => [])
  | .breakLoop _ | .continueLoop _ | .error .. => []
  | .declare _ _ _ init => (match init with | some e => e :: e.inner | none => [])
  | .function _ definition => definition.nodes

end

/-- An expression and all expressions inside it. -/
def Expr.nodes (e : Expr) : List Expr :=
  e :: e.inner

/-- The expressions of a program, at any depth. -/
def Program.nodes (p : Program) : List Expr :=
  p.statements.flatMap Stmt.nodes

theorem Expr.span_withSpan (e : Expr) (span : Span) : (e.withSpan span).span = span := by
  cases e <;> rfl

/-! Places among tokens whose ends come in order. -/

namespace Cursor

variable {tokens : List Token} {c d m : Cursor} {span other : Span}

/-- The ends of the last token and of those from the cursor on come in order. -/
def Ordered (c : Cursor) : Prop :=
  (c.last.endOffset :: (c.next :: c.rest).map (·.span.endOffset)).Pairwise (· ≤ ·)

/-- The cursor stands in front of one of the tokens, whose ends come in order. -/
structure Inside (tokens : List Token) (c : Cursor) : Prop where
  indexes : c.Indexes tokens
  ends : c.Ends
  ordered : c.Ordered

theorem last_advance (hc : c.Ends) (hkind : c.next.kind ≠ .eof) : c.advance.last = c.next.span := by
  unfold Ends at hc
  rw [Cursor.advance]
  split
  · rename_i hrest
    rw [hrest] at hc
    exact absurd hc hkind
  · rw [if_neg hkind]

theorem Ordered.advance (h : c.Ordered) (hc : c.Ends) : c.advance.Ordered := by
  by_cases hkind : c.next.kind = .eof
  · rwa [advance_of_eof hkind]
  · unfold Ordered at h ⊢
    rw [(advance_eq hc hkind).1, List.map_cons] at h
    rw [last_advance hc hkind]
    exact (List.pairwise_cons.1 h).2

theorem Ordered.last_le (h : c.Ordered) (hc : c.Ends) :
    c.last.endOffset ≤ c.advance.last.endOffset := by
  by_cases hkind : c.next.kind = .eof
  · exact Nat.le_of_eq (by rw [advance_of_eof hkind])
  · rw [last_advance hc hkind]
    exact (List.pairwise_cons.1 h).1 _ (by simp)

theorem Inside.advance (h : c.Inside tokens) : c.advance.Inside tokens :=
  ⟨h.indexes.advance h.ends, h.ends.advance, h.ordered.advance h.ends⟩

theorem Before.inside (hd : c.Before d) (h : c.Inside tokens) : d.Inside tokens := by
  obtain ⟨count, rfl⟩ := hd
  induction count generalizing c with
  | zero => exact h
  | succ count ih => exact ih h.advance

theorem Before.last_le (hd : c.Before d) (h : c.Inside tokens) :
    c.last.endOffset ≤ d.last.endOffset := by
  obtain ⟨count, rfl⟩ := hd
  induction count generalizing c with
  | zero => exact Nat.le_refl _
  | succ count ih => exact Nat.le_trans (h.ordered.last_le h.ends) (ih h.advance)

/-- A cursor with as many tokens behind it has not moved. -/
theorem Before.eq_of_left (h : c.Before m) (hc : c.Ends) (hleft : m.left = c.left) : m = c := by
  obtain ⟨count, rfl⟩ := h
  induction count generalizing c with
  | zero => rfl
  | succ count ih =>
    rw [drop] at hleft ⊢
    by_cases hkind : c.next.kind = .eof
    · rw [advance_of_eof hkind] at hleft ⊢
      exact ih hc hleft
    · have hlt := left_advance hc hkind
      have hle := Before.left_le ⟨count, rfl⟩ hc.advance
      omega

/-- The span starts with the token behind `c` and ends with the token in front of `m`. -/
structure Covers (c m : Cursor) (span : Span) : Prop where
  start : span.start = c.next.span.start
  stop : span.endOffset = m.last.endOffset

theorem covers_next (hc : c.Ends) (hkind : c.next.kind ≠ .eof) : Covers c c.advance c.next.span :=
  ⟨rfl, by rw [last_advance hc hkind]⟩

end Cursor

theorem Span.endOffset_join (s other : Span) :
    (s.join other).endOffset = max other.endOffset s.endOffset := by
  simp only [Span.join, Span.endOffset]
  omega

namespace Cursor.Covers

variable {tokens : List Token} {c d m m₂ : Cursor} {span other : Span}

/-- A span that is drawn on to the last token. -/
theorem joinLast (h : Covers c m span) (hm : m.Inside tokens) (hbefore : m.Before m₂) :
    Covers c m₂ (span.join m₂.last) := by
  have hle := hbefore.last_le hm
  exact ⟨h.start, by rw [Span.endOffset_join, h.stop, Nat.max_eq_left hle]⟩

/-- Two spans behind each other. -/
theorem join (h : Covers c m span) (hother : Covers d m₂ other) (hm : m.Inside tokens)
    (hbefore : m.Before m₂) : Covers c m₂ (span.join other) := by
  have hle := hbefore.last_le hm
  exact ⟨h.start, by rw [Span.endOffset_join, h.stop, hother.stop, Nat.max_eq_left hle]⟩

end Cursor.Covers

/-- The expression is read from the tokens that its span covers. -/
def Expr.Cited (tokens : List Token) (e : Expr) : Prop :=
  ∃ c m : Cursor, c.Inside tokens ∧ c.Before m ∧ c.Covers m e.span ∧ Parser.Reads c m e

namespace Parser

variable {α β γ : Type} {tokens : List Token} {c : Cursor} {Q : α → Cursor → Prop}
  {R : β → Cursor → Prop}

/-- From `c` on a parser goes forward to a value that satisfies `Q`, together with the cursor behind
it. -/
def Cites (c : Cursor) (Q : α → Cursor → Prop) (p : Parser α) : Prop :=
  ∀ a m, p c = .ok a m → c.Before m ∧ Q a m

theorem cites_pure {a : α} (h : Q a c) : Cites c Q (pure a) := by
  rintro a' m ⟨⟩
  exact ⟨.refl c, h⟩

theorem Cites.bind {p : Parser α} {f : α → Parser β} (hc : c.Inside tokens) (hp : Cites c Q p)
    (hf : ∀ a m, m.Inside tokens → c.Before m → Q a m → Cites m R (f a)) :
    Cites c R (p >>= f) := by
  intro b m hok
  obtain ⟨a, m₁, hfirst, hrest⟩ := bind_eq_ok hok
  obtain ⟨hbefore, ha⟩ := hp a m₁ hfirst
  obtain ⟨hmore, hb⟩ := hf a m₁ (hbefore.inside hc) hbefore ha b m hrest
  exact ⟨hbefore.trans hmore, hb⟩

theorem Cites.blame {p : Parser α} {span : Span} (h : Cites c Q p) : Cites c Q (blame span p) :=
  fun a m hok => h a m (blame_eq_ok hok)

theorem cites_failHere {message : String} : Cites c Q (failHere message) :=
  fun _ _ h => nomatch h

theorem cites_bounded {loop : Nat → Parser α} (h : ∀ limit, Cites c Q (loop limit)) :
    Cites c Q (bounded loop) :=
  h _

/-- Where nothing is said of the value, it is enough that the parser goes forward. -/
theorem cites_of_tracks {p q : Parser α} {view : α → γ} (hc : c.Ends)
    (h : ∀ d, c.Trims (.off 0) d → Tracks (.off 0) c d view p q) : Cites c (fun _ _ => True) p := by
  intro a m hok
  obtain ⟨d, hd⟩ := Cursor.exists_trims hc (.off 0)
  exact ⟨((h d hd).reads a m hok).1, trivial⟩

/-! What looks at the tokens. -/

theorem cites_nextKind {f : TokenKind → Parser β} (h : Cites c R (f c.next.kind)) :
    Cites c R (nextKind >>= f) :=
  h

theorem cites_secondKind {f : TokenKind → Parser β} (h : Cites c R (f c.secondKind)) :
    Cites c R (secondKind >>= f) :=
  h

theorem cites_peek {f : Token → Parser β} (h : Cites c R (f c.next)) : Cites c R (peek >>= f) :=
  h

theorem cites_location {f : Span → Parser β} (h : Cites c R (f c.next.span)) :
    Cites c R (location >>= f) :=
  h

theorem cites_spanFrom {start : Span} {f : Span → Parser β} (h : Cites c R (f (start.join c.last))) :
    Cites c R (spanFrom start >>= f) :=
  h

/-! What takes a token. -/

/-- What follows `d` follows `c`. -/
theorem Cites.behind {p q : Parser β} {d : Cursor} (hd : c.Before d) (hpq : p c = q d)
    (h : Cites d R q) : Cites c R p := by
  intro b m hok
  rw [hpq] at hok
  obtain ⟨hbefore, hb⟩ := h b m hok
  exact ⟨hd.trans hbefore, hb⟩

theorem cites_advance {f : Token → Parser β} (hc : c.Inside tokens)
    (h : c.advance.Inside tokens → Cites c.advance R (f c.next)) : Cites c R (advance >>= f) :=
  .behind (Cursor.before_advance c) rfl (h hc.advance)

theorem cites_skipSemicolons {f : Unit → Parser β} (hc : c.Inside tokens)
    (h : c.skipSemicolons.Inside tokens → Cites c.skipSemicolons R (f ())) :
    Cites c R (skipSemicolons >>= f) := by
  have hskip := Cursor.before_skipSemicolons c
  exact .behind hskip rfl (h (hskip.inside hc))

theorem cites_accept {kind : TokenKind} {f : Bool → Parser β} (hc : c.Inside tokens)
    (htrue : c.advance.Inside tokens → Cites c.advance R (f true)) (hfalse : Cites c R (f false)) :
    Cites c R (accept kind >>= f) := by
  by_cases hkind : c.next.kind = kind
  · have hreply : (accept kind >>= f) c = f true c.advance := by
      change andThen (accept kind) f c = _
      rw [andThen, accept, if_pos hkind]
    exact .behind (Cursor.before_advance c) hreply (htrue hc.advance)
  · have hreply : (accept kind >>= f) c = f false c := by
      change andThen (accept kind) f c = _
      rw [andThen, accept, if_neg hkind]
    exact .behind (.refl c) hreply hfalse

theorem cites_expect {kind : TokenKind} {message : String} {f : Token → Parser β}
    (hc : c.Inside tokens) (h : c.advance.Inside tokens → Cites c.advance R (f c.next)) :
    Cites c R (expect kind message >>= f) := by
  by_cases hkind : c.next.kind = kind
  · have hreply : (expect kind message >>= f) c = f c.next c.advance := by
      change andThen (expect kind message) f c = _
      rw [andThen, expect, if_pos hkind]
      rfl
    exact .behind (Cursor.before_advance c) hreply (h hc.advance)
  · intro b m hok
    change andThen (expect kind message) f c = _ at hok
    rw [andThen, expect, if_neg hkind] at hok
    cases hok

theorem cites_expectName {message : String} {f : String → Parser β} (hc : c.Inside tokens)
    (h : ∀ name, c.advance.Inside tokens → Cites c.advance R (f name)) :
    Cites c R (expectName message >>= f) := by
  rw [expectName, bind_assoc]
  exact cites_expect hc (h _)

end Parser

end Scripting
