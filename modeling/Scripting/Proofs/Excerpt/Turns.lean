import Scripting.Proofs.Excerpt.Tracking

/-!
The loops that put operators behind an expression: the operators behind an operand, the accesses behind
`new`, and the operators of one level. They make their turns in the same way.
-/

namespace Scripting.Parser

/-- Takes turns, each of which makes a new expression of the one before, until there is none. -/
def turns (turn : Expr → Parser (Option Expr)) : Nat → Expr → Parser Expr
  | 0, _ => exhausted
  | limit + 1, e => do
    match ← turn e with
    | some next => turns turn limit next
    | none => return e

/-- One operator behind an operand that starts at `start`, if there is one. -/
def postfixTurn (g : Grammar) (start : Span) (expr : Expr) : Parser (Option Expr) := do
  match ← nextKind with
  | .dot =>
    let _ ← advance
    let access ← memberName expr
    return some access
  | .leftParen =>
    let _ ← advance
    let args ← blame start (arguments g)
    let span ← spanFrom start
    return some (.call span expr args)
  | .leftBracket =>
    let _ ← advance
    let index ← g.expression
    if ← accept .rightBracket then
      let span ← spanFrom start
      return some (.subscript span expr index)
    else failHere "Expected ']' after subscript"
  | .plusPlus =>
    let _ ← advance
    let span ← spanFrom start
    return some (.unary span .postIncrement expr)
  | .minusMinus =>
    let _ ← advance
    let span ← spanFrom start
    return some (.unary span .postDecrement expr)
  | _ => return none

/-- One access between `new` and its arguments, if there is one. -/
def memberTurn (expr : Expr) : Parser (Option Expr) := do
  if ← accept .dot then
    let access ← memberName expr
    return some access
  else return none

/-- One more operand of a level, if there is an operator of the level. -/
def binaryTurn (operand : Parser Expr) (op? : TokenKind → Option BinaryOp) (left : Expr) :
    Parser (Option Expr) := do
  match op? (← nextKind) with
  | none => return none
  | some op =>
    let _ ← advance
    let right ← operand
    return some (.binary (left.span.join right.span) op left right)

theorem bind_assoc {α β γ : Type} (p : Parser α) (f : α → Parser β) (h : β → Parser γ) :
    (p >>= f) >>= h = p >>= fun a => f a >>= h := by
  funext c
  change andThen (andThen p f) h c = andThen p (fun a => andThen (f a) h) c
  simp only [andThen]
  cases p c <;> rfl

theorem pure_bind {α β : Type} (a : α) (f : α → Parser β) : (pure a >>= f) = f a :=
  rfl

theorem ite_bind {α β : Type} (b : Bool) (p q : Parser α) (f : α → Parser β) :
    (if b then p else q) >>= f = if b then p >>= f else q >>= f := by
  cases b <;> rfl

theorem failHere_bind {α β : Type} (message : String) (f : α → Parser β) :
    failHere message >>= f = failHere message :=
  rfl

theorem postfixes_eq (g : Grammar) (start : Span) (limit : Nat) (e : Expr) :
    postfixes g start limit e = turns (postfixTurn g start) limit e := by
  induction limit generalizing e with
  | zero => rfl
  | succ limit ih =>
    rw [postfixes, turns, postfixTurn, bind_assoc]
    congr 1
    funext kind
    split <;> simp only [bind_assoc, pure_bind, ite_bind, failHere_bind, ih]

theorem memberChain_eq (limit : Nat) (e : Expr) : memberChain limit e = turns memberTurn limit e := by
  induction limit generalizing e with
  | zero => rfl
  | succ limit ih =>
    simp only [memberChain, turns, memberTurn, bind_assoc, pure_bind, ite_bind, ih]

theorem binaryRest_eq (operand : Parser Expr) (op? : TokenKind → Option BinaryOp) (limit : Nat)
    (left : Expr) :
    binaryRest operand op? limit left = turns (binaryTurn operand op?) limit left := by
  induction limit generalizing left with
  | zero => rfl
  | succ limit ih =>
    rw [binaryRest, turns, binaryTurn, bind_assoc]
    congr 1
    funext kind
    cases op? kind with
    | none => rfl
    | some op => simp only [bind_assoc, pure_bind, ih]

/-- A construction without the operators behind it. -/
def constructed (g : Grammar) (start : Span) : Parser Expr := do
  let first ← primary g
  let callee ← bounded fun limit => memberChain limit first
  if ← accept .leftParen then
    let args ← blame start (arguments g)
    let span ← spanFrom start
    return .construct span callee args
  else failHere "Expected '(' after 'new' expression"

theorem construction_eq (g : Grammar) (start : Span) :
    construction g start = constructed g start >>= withPostfixes g := by
  simp only [construction, constructed, bind_assoc, pure_bind, ite_bind, failHere_bind]

/-! Turns in two texts that are the same up to a border. -/

section

variable {cut : Cut} {c d : Cursor} {turn turn' : Expr → Parser (Option Expr)}

/-- What one turn makes of an expression in front of the border, it makes of it in the second text. -/
def TracksTurn (cut : Cut) (turn turn' : Expr → Parser (Option Expr)) : Prop :=
  ∀ {c d : Cursor} {e e' : Expr}, c.Trims cut d → e.bare = e'.bare →
    Tracks cut c d (Option.map Expr.bare) (turn e) (turn' e')

theorem tracks_turns (hturn : TracksTurn cut turn turn') {limit limit' : Nat} {e e' : Expr}
    (h : c.Trims cut d) (he : e.bare = e'.bare) :
    Tracks cut c d Expr.bare (turns turn limit e) (turns turn' limit' e') := by
  induction limit generalizing limit' c d e e' with
  | zero => exact consumes_exhausted.tracks
  | succ limit ih =>
    apply tracks_limit (fun limit => turns turn' limit e') rfl
    intro limit'
    apply (hturn h he).bind h.ends
    intro next next' m n hn hnext
    cases next with
    | none =>
      cases next' with
      | none => exact tracks_pure hn he
      | some next' => cases hnext
    | some next =>
      cases next' with
      | none => cases hnext
      | some next' =>
        simp only [Option.map_some, Option.some.injEq] at hnext
        exact ih hn hnext

end

end Scripting.Parser
