import Scripting.Parser.Program
import Scripting.Proofs.RoundTrip.Legible

/-!
What parsers make of the tokens of a text: rules for the ways in which parsers are put together.
-/

namespace Scripting

/-- What holds of a token that is taken off a text: an identifier is a name, and both identifiers and
keywords are words. -/
structure Token.WellLexed (t : Token) : Prop where
  name : t.kind = .identifier → isName t.lexeme = true
  word : ∀ keyword, t.kind = .keyword keyword → Lexeme.isWord t.lexeme.toList = true

theorem Token.wellLexed_eof (p : Location) : (Token.eof p).WellLexed :=
  ⟨fun h => (nomatch h), fun _ h => (nomatch h)⟩

theorem Token.WellLexed.isWord {t : Token} (h : t.WellLexed) (hkind : t.kind = .identifier) :
    Lexeme.isWord t.lexeme.toList = true := by
  have hname := h.name hkind
  rw [isName, Bool.and_eq_true] at hname
  exact hname.1

namespace Cursor

/-- All tokens from the cursor on are taken off a text. -/
def WellLexed (c : Cursor) : Prop :=
  ∀ t ∈ c.next :: c.rest, t.WellLexed

theorem WellLexed.next {c : Cursor} (h : c.WellLexed) : c.next.WellLexed :=
  h c.next (by simp)

theorem WellLexed.advance {c : Cursor} (h : c.WellLexed) : c.advance.WellLexed := by
  unfold Cursor.advance
  split
  · exact h
  · rename_i t rest hrest
    split
    · exact h
    · intro u hu
      exact h u (by rw [hrest]; exact List.mem_cons_of_mem _ hu)

/-- The token behind the next one is the next one after it is taken. -/
theorem kind_next_advance {c : Cursor} {kind : TokenKind} (hnext : c.next.kind ≠ .eof)
    (hkind : kind ≠ .eof) (h : (c.rest.head?.map (·.kind)).getD .eof = kind) :
    c.advance.next.kind = kind := by
  obtain ⟨last, next, rest, left, left_eq⟩ := c
  cases rest with
  | nil => exact absurd h.symm hkind
  | cons t rest =>
    simp only at hnext
    simpa [Cursor.advance, hnext] using h

theorem WellLexed.skipSemicolons {c : Cursor} (h : c.WellLexed) : c.skipSemicolons.WellLexed := by
  unfold Cursor.skipSemicolons
  generalize c.left = n
  induction n generalizing c with
  | zero => exact h
  | succ n ih =>
    rw [skipSemicolonsUpTo]
    split
    · exact ih h.advance
    · exact h

end Cursor

/-- What a reply has to satisfy: a value, together with the cursor behind it, satisfies `Q`; a failure
says what is wrong. -/
def Reply.Satisfies {α : Type} (Q : α → Cursor → Prop) : Reply α → Prop
  | .ok a c => c.WellLexed ∧ Q a c
  | .fail e _ => e.errors ≠ []

namespace Parser

variable {α β : Type} {c : Cursor} {Q : α → Cursor → Prop} {R : β → Cursor → Prop}

/-- What a parser answers from a cursor on satisfies `Q`, unless it fails. -/
def Yields (c : Cursor) (Q : α → Cursor → Prop) (p : Parser α) : Prop :=
  (p c).Satisfies Q

theorem Yields.mono {Q' : α → Cursor → Prop} {p : Parser α} (h : Yields c Q p)
    (hQ : ∀ a c', Q a c' → Q' a c') : Yields c Q' p := by
  unfold Yields at h ⊢
  cases hp : p c with
  | ok a c' =>
    rw [hp] at h
    exact ⟨h.1, hQ a c' h.2⟩
  | fail e c' =>
    rw [hp] at h
    exact h

theorem yields_pure {a : α} (hc : c.WellLexed) (h : Q a c) : Yields c Q (pure a) :=
  ⟨hc, h⟩

theorem Yields.bind {p : Parser α} {f : α → Parser β} (hp : Yields c Q p)
    (hf : ∀ a c', c'.WellLexed → Q a c' → Yields c' R (f a)) : Yields c R (p >>= f) := by
  change (andThen p f c).Satisfies R
  unfold Yields at hp
  rw [andThen]
  cases hpc : p c with
  | ok a c' =>
    rw [hpc] at hp
    exact hf a c' hp.1 hp.2
  | fail e c' =>
    rw [hpc] at hp
    exact hp

theorem yields_failAt {span : Span} {message : String} : Yields c Q (failAt span message) :=
  List.cons_ne_nil _ _

theorem yields_failHere {message : String} : Yields c Q (failHere message) :=
  List.cons_ne_nil _ _

theorem yields_exhausted : Yields c Q exhausted :=
  List.cons_ne_nil _ _

theorem Yields.blame {p : Parser α} {span : Span} (h : Yields c Q p) :
    Yields c Q (blame span p) := by
  unfold Yields Parser.blame at *
  cases hpc : p c with
  | ok a c' =>
    rw [hpc] at h
    exact h
  | fail e c' =>
    rw [hpc] at h
    exact h

/-! What looks at the next token. -/

theorem yields_nextKind {f : TokenKind → Parser β} (h : Yields c R (f c.next.kind)) :
    Yields c R (nextKind >>= f) :=
  h

theorem yields_secondKind {f : TokenKind → Parser β}
    (h : Yields c R (f ((c.rest.head?.map (·.kind)).getD .eof))) :
    Yields c R (secondKind >>= f) :=
  h

theorem yields_peek {f : Token → Parser β} (h : Yields c R (f c.next)) : Yields c R (peek >>= f) :=
  h

theorem yields_location {f : Span → Parser β} (h : ∀ span, Yields c R (f span)) :
    Yields c R (location >>= f) :=
  h _

theorem yields_spanFrom {start : Span} {f : Span → Parser β} (h : ∀ span, Yields c R (f span)) :
    Yields c R (spanFrom start >>= f) :=
  h _

/-! What takes a token. -/

theorem yields_advance {f : Token → Parser β} (h : Yields c.advance R (f c.next)) :
    Yields c R (advance >>= f) :=
  h

theorem yields_skipSemicolons {f : Unit → Parser β} (h : Yields c.skipSemicolons R (f ())) :
    Yields c R (skipSemicolons >>= f) :=
  h

theorem yields_accept {kind : TokenKind} {f : Bool → Parser β}
    (htrue : c.next.kind = kind → Yields c.advance R (f true)) (hfalse : Yields c R (f false)) :
    Yields c R (accept kind >>= f) := by
  change (andThen (accept kind) f c).Satisfies R
  by_cases hkind : c.next.kind = kind
  · rw [andThen, accept, if_pos hkind]
    exact htrue hkind
  · rw [andThen, accept, if_neg hkind]
    exact hfalse

theorem yields_expect {kind : TokenKind} {message : String} {f : Token → Parser β}
    (h : c.next.kind = kind → Yields c.advance R (f c.next)) :
    Yields c R (expect kind message >>= f) := by
  change (andThen (expect kind message) f c).Satisfies R
  by_cases hkind : c.next.kind = kind
  · rw [andThen, expect, if_pos hkind]
    exact h hkind
  · rw [andThen, expect, if_neg hkind]
    exact List.cons_ne_nil _ _

theorem yields_expectName {message : String} (hc : c.WellLexed) :
    Yields c (fun name _ => isName name = true) (expectName message) :=
  yields_expect fun hkind => yields_pure hc.advance (hc.next.name hkind)

theorem yields_bounded {loop : Nat → Parser α} (h : ∀ limit, Yields c Q (loop limit)) :
    Yields c Q (bounded loop) :=
  h _

end Parser

end Scripting
