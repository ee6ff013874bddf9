import Scripting.Proofs.Account.Statement
import Scripting.Proofs.Excerpt.Production

/-!
Reading an expression again in the text that is cut off behind it.

What a parser of any level reads up to the border, it reads in the cut text up to the end, and there no
looser level finds an operator. A loop that puts operators behind an expression gives the expression of
each of its turns, if the text is cut off behind the turn.
-/

namespace Scripting.Parser

variable {c d m m₂ : Cursor} {e e₂ : Expr} {q : Nat → Parser Expr}

/-- In the text from `c` on that is cut off at `m`, each of the parsers reads `e` up to the end, unless
it is cut short. -/
def Recovers (q : Nat → Parser Expr) (c m : Cursor) (e : Expr) : Prop :=
  ∀ d, c.Trims (.off m.left) d → ∀ depth,
    (∃ e' n, q depth d = .ok e' n ∧ e.bare = e'.bare ∧ n.next.kind = .eof) ∨ (q depth d).Stalls

/-- The text from `c` to `m` is an expression, and it is `e`. -/
def Reads : Cursor → Cursor → Expr → Prop :=
  Recovers fun depth => assignment (Grammar.ofDepth depth)

theorem kind_of_trims_self (h : m.Trims (.off m.left) d) : d.next.kind = .eof := by
  cases h.joins with
  | ended _ shapes => exact Cursor.kind_of_shapes shapes
  | same left => exact absurd rfl left

theorem recovers_of_tracks {p : Parser Expr}
    (h : ∀ d depth, c.Trims (.off m.left) d → Tracks (.off m.left) c d Expr.bare p (q depth))
    (hok : p c = .ok e m) : Recovers q c m e := by
  intro d hd depth
  obtain ⟨e', n, hq, he, hn⟩ | hstalls := ((h d depth hd).reads e m hok).2 (Int.le_refl _)
  · exact .inl ⟨e', n, hq, he, kind_of_trims_self hn⟩
  · exact .inr hstalls

/-! Looser levels. -/

/-- What follows a parser finds nothing at the end of the text. -/
theorem Recovers.bind {f : Nat → Expr → Parser Expr}
    (hf : ∀ depth e n, n.next.kind = .eof → f depth e n = .ok e n) (h : Recovers q c m e) :
    Recovers (fun depth => q depth >>= f depth) c m e := by
  intro d hd depth
  obtain ⟨e', n, hq, he, hn⟩ | hstalls := h d hd depth
  · exact .inl ⟨e', n, (bind_of_ok _ hq).trans (hf depth e' n hn), he, hn⟩
  · exact .inr (bind_stalls _ hstalls)

theorem Recovers.binaryLevels {levels : List (TokenKind → Option BinaryOp)}
    (hlevels : ∀ op? ∈ levels, op? .eof = none) (h : Recovers q c m e) :
    Recovers (fun depth => levels.foldl binaryLevel (q depth)) c m e := by
  induction levels generalizing q with
  | nil => exact h
  | cons op? levels ih =>
    rw [List.forall_mem_cons] at hlevels
    apply ih hlevels.2
    apply h.bind
    intro depth e' n hn
    change binaryRest (q depth) op? (n.left + 1) e' n = _
    rw [binaryRest, nextKind_bind, hn, hlevels.1]
    rfl

theorem binaryLevels_eof : ∀ op? ∈ binaryLevels, op? .eof = none := by
  simp [binaryLevels, multiplicativeOp?, additiveOp?, comparisonOp?, andOp?, orOp?]

/-- The levels that are tighter than the others. -/
theorem reads_of_levels {tighter looser : List (TokenKind → Option BinaryOp)}
    (hlevels : binaryLevels = tighter ++ looser)
    (h : Recovers (fun depth => tighter.foldl binaryLevel (unary (Grammar.ofDepth depth))) c m e) :
    Reads c m e := by
  have hall := binaryLevels_eof
  rw [hlevels] at hall
  have hlooser := h.binaryLevels fun op? hop => hall op? (List.mem_append_right _ hop)
  simp only [← List.foldl_append, ← hlevels] at hlooser
  apply hlooser.bind
  intro depth e' n hn
  rw [nextKind_bind, hn]
  rfl

theorem reads_of_unary (h : Recovers (fun depth => unary (Grammar.ofDepth depth)) c m e) :
    Reads c m e :=
  reads_of_levels (List.nil_append binaryLevels).symm h

/-- A parser with enough depth is not cut short. -/
theorem Reads.expression (h : Reads c m e) (hd : c.Trims (.off m.left) d) (hends : d.Ends) :
    ∃ e' stop, (Grammar.forCursor d).expression d = .ok e' stop ∧ stop.next.kind = .eof ∧
      e'.bare = e.bare := by
  have hdefinite : ((Grammar.forCursor d).expression d).Proceeds d d.left :=
    (Grammar.serves_ofDepth (2 * d.left + 4)).1.expression hends (by omega)
  have hreread : (∃ e' n, (Grammar.forCursor d).expression d = .ok e' n ∧ e.bare = e'.bare ∧
      n.next.kind = .eof) ∨ ((Grammar.forCursor d).expression d).Stalls := h d hd (2 * d.left + 3)
  obtain ⟨e', n, hreply, he, hn⟩ | hstalls := hreread
  · exact ⟨e', n, hreply, hn, he.symm⟩
  · cases hreply : (Grammar.forCursor d).expression d with
    | ok e' n =>
      rw [hreply] at hstalls
      exact absurd hstalls id
    | fail failure n =>
      rw [hreply] at hdefinite hstalls
      exact absurd hdefinite.2 hstalls

/-- No expression is empty. -/
theorem Reads.left_lt (h : Reads c m e) (hc : c.Ends) (hbefore : c.Before m) : m.left < c.left := by
  apply Nat.lt_of_le_of_ne (hbefore.left_le hc)
  intro hleft
  obtain ⟨d, hd⟩ := Cursor.exists_trims hc (.off m.left)
  have hshapes : d.shapes = [.eof] := by
    cases hd.joins with
    | ended _ shapes => exact shapes
    | same left => exact absurd (congrArg Nat.cast hleft.symm) left
  have hrest := Cursor.rest_of_shapes hshapes
  have hends : d.Ends := by
    rw [Cursor.Ends, hrest]
    exact Cursor.kind_of_shapes hshapes
  obtain ⟨e', stop, hreply, -⟩ := h.expression hd hends
  obtain ⟨n, hn⟩ := Cursor.exists_trims hends (.off 0)
  have htakes := ((Grammar.tracked_ofDepth _ (.off 0) 0).expression hn).takes e' stop hreply
  rw [d.left_eq, hrest] at htakes
  exact Nat.not_lt_zero _ htakes

/-! Turns of a loop. -/

/-- In the cut text a parser comes to a turn of its loop at `m`, with `e` read so far. The turns of the
loop are of the form `T`. -/
def Resumes (q : Nat → Parser Expr) (T : Nat → (Expr → Parser (Option Expr)) → Prop) (c m : Cursor)
    (e : Expr) : Prop :=
  ∀ (cut : Cut) d, cut.border ≤ m.left → c.Trims cut d → ∀ depth,
    (∃ turn limit e' n, T depth turn ∧ q depth d = turns turn limit e' n ∧ e.bare = e'.bare ∧
      m.Trims cut n) ∨ (q depth d).Stalls

variable {T : Nat → (Expr → Parser (Option Expr)) → Prop}

/-- The loop of a parser starts with what the parser in front of it reads. -/
theorem resumes_of_head {p : Parser Expr} (head : Nat → Parser Expr)
    (turn : Nat → Expr → Expr → Parser (Option Expr)) (hT : ∀ depth e, T depth (turn depth e))
    (hq : ∀ (cut : Cut) d depth, cut.border ≤ m.left → c.Trims cut d → q depth d =
      (head depth >>= fun e => bounded fun limit => turns (turn depth e) limit e) d)
    (htracks : ∀ cut d depth, c.Trims cut d → Tracks cut c d Expr.bare p (head depth))
    (hok : p c = .ok e m) : Resumes q T c m e := by
  intro cut d hborder hd depth
  rw [hq cut d depth hborder hd]
  obtain ⟨e', n, hhead, he, hn⟩ | hstalls := ((htracks cut d depth hd).reads e m hok).2 hborder
  · exact .inl ⟨turn depth e', n.left + 1, e', n, hT depth e', bind_of_ok _ hhead, he, hn⟩
  · exact .inr (bind_stalls _ hstalls)

/-- A turn in the whole text is a turn in the cut text. -/
theorem Resumes.turn {turn : Expr → Parser (Option Expr)}
    (hT : ∀ cut depth turn', T depth turn' → TracksTurn cut turn turn')
    (h : Resumes q T c m e) (hle : m₂.left ≤ m.left) (hok : turn e m = .ok (some e₂) m₂) :
    Resumes q T c m₂ e₂ := by
  intro cut d hborder hd depth
  obtain ⟨turn', limit, e', n, hturn', hq, he, hn⟩ | hstalls := h cut d (by omega) hd depth
  · rw [hq]
    cases limit with
    | zero => exact .inr (exhausted_stalls n)
    | succ limit =>
      obtain ⟨next, n₂, hnext, hview, hn₂⟩ | hstalls :=
        ((hT cut depth turn' hturn' hn he).reads (some e₂) m₂ hok).2 hborder
      · cases next with
        | none => cases hview
        | some e₂' =>
          simp only [Option.map_some, Option.some.injEq] at hview
          exact .inl ⟨turn', limit, e₂', n₂, hturn', bind_of_ok _ hnext, hview, hn₂⟩
      · exact .inr (bind_stalls _ hstalls)
  · exact .inr hstalls

/-- Where the text is cut off behind a turn, the loop ends with it. -/
theorem Resumes.recovers
    (hstop : ∀ depth turn e n, T depth turn → n.next.kind = .eof → turn e n = .ok none n)
    (h : Resumes q T c m e) : Recovers q c m e := by
  intro d hd depth
  obtain ⟨turn, limit, e', n, hturn, hq, he, hn⟩ | hstalls := h (.off m.left) d (Int.le_refl _) hd depth
  · have hend := kind_of_trims_self hn
    rw [hq]
    cases limit with
    | zero => exact .inr (exhausted_stalls n)
    | succ limit =>
      exact .inl ⟨e', n, by rw [turns, bind_of_ok _ (hstop depth turn e' n hturn hend)]; rfl, he,
        hend⟩
  · exact .inr hstalls

/-! The operators behind an operand. -/

variable {g : Grammar}

/-- The turns of the operators behind an operand, in a grammar of any depth. -/
def IsPostfixTurn (depth : Nat) (turn : Expr → Parser (Option Expr)) : Prop :=
  ∃ start, turn = postfixTurn (Grammar.ofDepth depth) start

/-- An operand is read from `c` on, and `e` is what is read of it up to `m`. -/
def Operates : Cursor → Cursor → Expr → Prop :=
  Resumes (fun depth => unary (Grammar.ofDepth depth)) IsPostfixTurn

theorem Operates.reads (h : Operates c m e) : Reads c m e := by
  apply reads_of_unary
  apply Resumes.recovers _ h
  rintro depth _ e n ⟨start, rfl⟩ hend
  rw [postfixTurn, nextKind_bind, hend]
  rfl

theorem Operates.turn (hg : g.Tracked) (start : Span) (h : Operates c m e) (hle : m₂.left ≤ m.left)
    (hok : postfixTurn g start e m = .ok (some e₂) m₂) : Operates c m₂ e₂ := by
  apply Resumes.turn _ h hle hok
  rintro cut depth _ ⟨start', rfl⟩
  exact tracksTurn_postfixTurn (hg cut depth) start start'

/-- An access behind `new` is an operator behind an operand. -/
theorem postfixTurn_of_memberTurn {start : Span} (hok : memberTurn e m = .ok (some e₂) m₂) :
    postfixTurn g start e m = .ok (some e₂) m₂ := by
  change andThen (accept .dot) _ m = _ at hok
  by_cases hdot : m.next.kind = .dot
  · rw [andThen, accept, if_pos hdot] at hok
    rw [postfixTurn, nextKind_bind, hdot]
    exact hok
  · rw [andThen, accept, if_neg hdot] at hok
    cases hok

theorem withPostfixes_eq (g : Grammar) : withPostfixes g =
    fun e => bounded fun limit => turns (postfixTurn g e.span) limit e := by
  funext e
  simp only [withPostfixes, postfixes_eq]

/-- The first token of a primary is no operator and not `new`. -/
theorem unary_of_primary (hok : primary g c = .ok e m) {g' : Grammar}
    (hkind : d.next.kind = c.next.kind) :
    unary g' d = (primary g' >>= withPostfixes g') d := by
  rw [primary, peek_bind] at hok
  rw [unary, peek_bind, hkind]
  cases hnext : c.next.kind <;> rw [hnext] at hok <;> first | rfl | cases hok | skip
  rename_i word
  cases word <;> first | rfl | cases hok

theorem operates_primary (hg : g.Tracked) (hok : primary g c = .ok e m) : Operates c m e := by
  apply resumes_of_head (fun depth => primary (Grammar.ofDepth depth))
    (fun depth e => postfixTurn (Grammar.ofDepth depth) e.span) _ _ _ hok
  · exact fun depth e => ⟨e.span, rfl⟩
  · intro cut d depth hborder hd
    -- the primary takes a token in front of the border
    have hleft := (consumes_primary (hg cut depth) hd).takes e m hok
    cases hd.joins with
    | ended left => omega
    | same _ shape =>
      rw [unary_of_primary hok (kind_eq_of_shape shape), withPostfixes_eq]
  · intro cut d depth hd
    exact (consumes_primary (hg cut depth) hd).tracks

theorem unary_of_new (hnew : d.next.kind = .keyword .newObject) :
    unary g d = (constructed g d.next.span >>= withPostfixes g) d.advance := by
  rw [← construction_eq, unary, peek_bind, hnew]
  rfl

theorem operates_constructed (hg : g.Tracked)
    (hnew : c.next.kind = .keyword .newObject)
    (hok : constructed g c.next.span c.advance = .ok e m) : Operates c m e := by
  have hkind : c.next.kind ≠ .eof := by simp [hnew]
  have hconsumes (cut : Cut) (depth : Nat) {d : Cursor} (hd : c.Trims cut d) :
      Consumes cut c d Expr.bare (advance >>= fun token => constructed g token.span)
        (advance >>= fun token => constructed (Grammar.ofDepth depth) token.span) := by
    apply consumes_advance hd hkind
    intro t n _ hn
    exact (consumes_constructed (hg cut depth) hn).tracks
  have hhead : (advance >>= fun token => constructed g token.span) c = .ok e m := hok
  apply resumes_of_head
    (fun depth => advance >>= fun token => constructed (Grammar.ofDepth depth) token.span)
    (fun depth e => postfixTurn (Grammar.ofDepth depth) e.span) _ _ _ hhead
  · exact fun depth e => ⟨e.span, rfl⟩
  · intro cut d depth hborder hd
    have hleft := (hconsumes cut depth hd).takes e m hhead
    cases hd.joins with
    | ended left => omega
    | same _ shape =>
      rw [unary_of_new ((kind_eq_of_shape shape).trans hnew), withPostfixes_eq]
      rfl
  · intro cut d depth hd
    exact (hconsumes cut depth hd).tracks

/-! The operators of one level. -/

/-- The operands of one level of operators are read from `c` on, and `e` is what is read of them up to
`m`. -/
def Accumulates (tighter : List (TokenKind → Option BinaryOp)) (op? : TokenKind → Option BinaryOp) :
    Cursor → Cursor → Expr → Prop :=
  Resumes (fun depth => binaryLevel (tighter.foldl binaryLevel (unary (Grammar.ofDepth depth))) op?)
    fun depth turn =>
      turn = binaryTurn (tighter.foldl binaryLevel (unary (Grammar.ofDepth depth))) op?

section

variable {tighter looser : List (TokenKind → Option BinaryOp)} {op? : TokenKind → Option BinaryOp}
  (hlevels : binaryLevels = tighter ++ op? :: looser)
include hlevels

theorem tighter_endsAt : (∀ other? ∈ tighter, EndsAt other?) ∧ EndsAt op? := by
  have hall := binaryLevels_endsAt
  rw [hlevels] at hall
  exact ⟨fun other? hother => hall other? (by simp [hother]), hall op? (by simp)⟩

theorem Accumulates.reads (h : Accumulates tighter op? c m e) : Reads c m e := by
  have hall : binaryLevels = (tighter ++ [op?]) ++ looser := by simp [hlevels]
  apply reads_of_levels hall
  simp only [List.foldl_append, List.foldl_cons, List.foldl_nil]
  apply Resumes.recovers _ h
  rintro depth _ e n rfl hend
  rw [binaryTurn, nextKind_bind, hend, (tighter_endsAt hlevels).2.1]
  rfl

variable (hg : g.Tracked)
include hg

theorem accumulates_operand (hok : tighter.foldl binaryLevel (unary g) c = .ok e m) :
    Accumulates tighter op? c m e := by
  apply resumes_of_head (fun depth => tighter.foldl binaryLevel (unary (Grammar.ofDepth depth)))
    (fun depth _ => binaryTurn (tighter.foldl binaryLevel (unary (Grammar.ofDepth depth))) op?)
    _ _ _ hok
  · exact fun depth e => rfl
  · intro cut d depth _ _
    simp only [binaryLevel, binaryRest_eq]
  · intro cut d depth hd
    exact (consumes_binaryLevels (tighter_endsAt hlevels).1 (consumes_unary (hg cut depth)) hd).tracks

theorem Accumulates.turn (h : Accumulates tighter op? c m e) (hle : m₂.left ≤ m.left)
    (hok : binaryTurn (tighter.foldl binaryLevel (unary g)) op? e m = .ok (some e₂) m₂) :
    Accumulates tighter op? c m₂ e₂ := by
  apply Resumes.turn _ h hle hok
  rintro cut depth _ rfl
  exact tracksTurn_binary (tighter_endsAt hlevels).2
    (consumes_binaryLevels (tighter_endsAt hlevels).1 (consumes_unary (hg cut depth)))

end

end Scripting.Parser
