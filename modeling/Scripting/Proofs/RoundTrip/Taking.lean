import Scripting.Parser.Program
import Scripting.Proofs.RoundTrip.Shape

/-!
Parsers that take given shapes: one rule for each way in which parsers are put together.
-/

namespace Scripting

/-- The shapes of the tokens from a cursor on. -/
def Cursor.shapes (c : Cursor) : List Shape :=
  c.next.shape :: c.rest.map Token.shape

theorem Cursor.length_shapes (c : Cursor) : c.shapes.length = c.left + 1 := by
  simp [shapes, c.left_eq]

theorem Cursor.kind_of_shapes {c : Cursor} {t : Shape} {more : List Shape}
    (h : c.shapes = t :: more) : c.next.kind = t.kind :=
  congrArg Shape.kind (List.cons.inj h).1

theorem Cursor.shapes_advance {c : Cursor} {t : Shape} {more : List Shape}
    (h : c.shapes = t :: more) (ht : t.kind ≠ .eof) (hmore : more ≠ []) :
    c.advance.shapes = more := by
  obtain ⟨last, next, rest, left, left_eq⟩ := c
  simp only [shapes, List.cons.injEq] at h
  obtain ⟨rfl, rfl⟩ := h
  cases rest with
  | nil => exact absurd rfl hmore
  | cons token rest =>
    have hkind : next.kind ≠ .eof := ht
    simp [advance, hkind, shapes]

theorem Cursor.skipSemicolons_of_ne {c : Cursor} (t : Shape) (h : c.shapes.head? = some t)
    (ht : t.kind ≠ .semicolon) : c.skipSemicolons = c := by
  rw [shapes, List.head?_cons, Option.some.injEq] at h
  have hkind : c.next.kind ≠ .semicolon := by
    rw [← h] at ht
    exact ht
  unfold skipSemicolons
  cases c.left with
  | zero => rfl
  | succ n => simp [skipSemicolonsUpTo, hkind]

theorem Cursor.shapes_skipSemicolons {c : Cursor} {t : Shape} {more : List Shape}
    (h : c.shapes = .semicolon :: t :: more) (ht : t.kind ≠ .semicolon) :
    c.skipSemicolons.shapes = t :: more := by
  have hadvance := shapes_advance h (by simp [Shape.semicolon]) (by simp)
  have hkind : c.next.kind = .semicolon := kind_of_shapes h
  have hkind' : c.advance.next.kind ≠ .semicolon := by rwa [kind_of_shapes hadvance]
  have hleft : c.left = (c.left - 1) + 1 := by
    have := c.length_shapes
    simp only [h, List.length_cons] at this
    omega
  unfold skipSemicolons
  rw [hleft, skipSemicolonsUpTo, if_pos hkind]
  cases c.left - 1 with
  | zero => exact hadvance
  | succ n =>
    rw [skipSemicolonsUpTo, if_neg hkind']
    exact hadvance

namespace Parser

variable {α β : Type} {all mid rest more : List Shape} {t u : Shape} {Q : α → Prop} {R : β → Prop}

/-- From shapes `all` on, a parser reads up to the shapes `rest` and gives a value that satisfies
`Q`. -/
def Takes (all rest : List Shape) (Q : α → Prop) (p : Parser α) : Prop :=
  ∀ c : Cursor, c.shapes = all → ∃ a c', p c = .ok a c' ∧ c'.shapes = rest ∧ Q a

theorem Takes.mono {Q' : α → Prop} {p : Parser α} (h : Takes all rest Q p) (hQ : ∀ a, Q a → Q' a) :
    Takes all rest Q' p := by
  intro c hc
  obtain ⟨a, c', hp, hc', ha⟩ := h c hc
  exact ⟨a, c', hp, hc', hQ a ha⟩

theorem takes_pure {a : α} (h : Q a) : Takes all all Q (pure a) :=
  fun c hc => ⟨a, c, rfl, hc, h⟩

theorem Takes.bind {p : Parser α} {f : α → Parser β} (hp : Takes all mid Q p)
    (hf : ∀ a, Q a → Takes mid rest R (f a)) : Takes all rest R (p >>= f) := by
  intro c hc
  obtain ⟨a, c', hpc, hc', ha⟩ := hp c hc
  obtain ⟨b, c'', hfc, hc'', hb⟩ := hf a ha c' hc'
  refine ⟨b, c'', ?_, hc'', hb⟩
  change andThen p f c = _
  rw [andThen, hpc]
  exact hfc

/-- A parser that looks at the cursor and does not move it. -/
theorem takes_look {g : Cursor → α} {f : α → Parser β}
    (h : ∀ c : Cursor, c.shapes = all → Takes all rest R (f (g c))) :
    Takes all rest R ((fun c => .ok (g c) c : Parser α) >>= f) :=
  fun c hc => h c hc c hc

theorem takes_nextKind {f : TokenKind → Parser β} (t : Shape) (ht : all.head? = some t)
    (h : Takes all rest R (f t.kind)) : Takes all rest R (nextKind >>= f) := by
  refine takes_look fun c hc => ?_
  rw [← hc, Cursor.shapes, List.head?_cons, Option.some.injEq] at ht
  rw [← ht] at h
  exact h

theorem takes_secondKind {f : TokenKind → Parser β}
    (h : Takes all rest R (f ((all[1]?.map Shape.kind).getD .eof))) :
    Takes all rest R (secondKind >>= f) := by
  refine takes_look fun c hc => ?_
  have hkind : (all[1]?.map Shape.kind).getD .eof = (c.rest.head?.map (·.kind)).getD .eof := by
    rw [← hc, Cursor.shapes, List.getElem?_cons_succ]
    cases c.rest <;> rfl
  rw [hkind] at h
  exact h

theorem takes_peek {f : Token → Parser β}
    (h : ∀ token : Token, token.shape = t → Takes (t :: more) rest R (f token)) :
    Takes (t :: more) rest R (peek >>= f) :=
  takes_look fun c hc => h c.next (List.cons.inj hc).1

theorem takes_location {f : Span → Parser β} (h : ∀ span, Takes all rest R (f span)) :
    Takes all rest R (location >>= f) :=
  takes_look fun c _ => h c.next.span

theorem takes_spanFrom {start : Span} {f : Span → Parser β}
    (h : ∀ span, Takes all rest R (f span)) : Takes all rest R (spanFrom start >>= f) :=
  takes_look fun c _ => h (start.join c.last)

theorem takes_advance (ht : (t.kind == .eof) = false) (hmore : more ≠ []) :
    Takes (t :: more) more (fun token => token.shape = t) advance := by
  intro c hc
  exact ⟨c.next, c.advance, rfl, Cursor.shapes_advance hc (ne_of_beq_false ht) hmore, (List.cons.inj hc).1⟩

theorem takes_accept (ht : (t.kind == .eof) = false) (hmore : more ≠ []) :
    Takes (t :: more) more (· = true) (accept t.kind) := by
  intro c hc
  refine ⟨true, c.advance, ?_, Cursor.shapes_advance hc (ne_of_beq_false ht) hmore, rfl⟩
  rw [accept, if_pos (Cursor.kind_of_shapes hc)]

theorem takes_accept_of_ne {kind : TokenKind} (t : Shape) (ht : all.head? = some t)
    (hkind : t.kind ≠ kind) : Takes all all (· = false) (accept kind) := by
  intro c hc
  have hkind : c.next.kind ≠ kind := by
    rw [← hc, Cursor.shapes, List.head?_cons, Option.some.injEq] at ht
    rw [← ht] at hkind
    exact hkind
  refine ⟨false, c, ?_, hc, rfl⟩
  rw [accept, if_neg hkind]

theorem takes_expect {message : String} (ht : (t.kind == .eof) = false) (hmore : more ≠ []) :
    Takes (t :: more) more (fun token => token.shape = t) (expect t.kind message) := by
  intro c hc
  refine ⟨c.next, c.advance, ?_, Cursor.shapes_advance hc (ne_of_beq_false ht) hmore, (List.cons.inj hc).1⟩
  rw [expect, if_pos (Cursor.kind_of_shapes hc)]
  rfl

/-! What is behind a token, whatever the token says. -/

theorem takes_past {p : Parser β} (ht : (t.kind == .eof) = false) (hmore : more ≠ [])
    (h : Takes more rest R p) : Takes (t :: more) rest R (advance >>= fun _ => p) :=
  (takes_advance ht hmore).bind fun _ _ => h

theorem takes_expected {p : Parser β} {message : String} (ht : (t.kind == .eof) = false) (hmore : more ≠ [])
    (h : Takes more rest R p) : Takes (t :: more) rest R (expect t.kind message >>= fun _ => p) :=
  (takes_expect ht hmore).bind fun _ _ => h

theorem takes_accepted {f : Bool → Parser β} (ht : (t.kind == .eof) = false) (hmore : more ≠ [])
    (h : Takes more rest R (f true)) : Takes (t :: more) rest R (accept t.kind >>= f) :=
  (takes_accept ht hmore).bind fun _ htrue => htrue ▸ h

theorem takes_expectName {message name : String} (hmore : more ≠ []) :
    Takes (.identifier name :: more) more (· = name) (expectName message) := by
  refine Takes.bind (takes_expect rfl hmore) fun token htoken => ?_
  exact takes_pure (congrArg Shape.lexeme htoken)

theorem takes_skipSemicolons (t : Shape) (ht : all.head? = some t) (hkind : t.kind ≠ .semicolon) :
    Takes all all (fun _ => True) skipSemicolons := by
  intro c hc
  refine ⟨(), c, ?_, hc, trivial⟩
  rw [skipSemicolons, Cursor.skipSemicolons_of_ne t (hc ▸ ht) hkind]

theorem Takes.blame {p : Parser α} (span : Span) (h : Takes all rest Q p) :
    Takes all rest Q (blame span p) := by
  intro c hc
  obtain ⟨a, c', hp, hc', ha⟩ := h c hc
  refine ⟨a, c', ?_, hc', ha⟩
  rw [Parser.blame, hp]

theorem takes_bounded {loop : Nat → Parser α} (h : Takes all rest Q (loop all.length)) :
    Takes all rest Q (bounded loop) := by
  intro c hc
  obtain ⟨a, c', hp, hc', ha⟩ := h c hc
  refine ⟨a, c', ?_, hc', ha⟩
  rw [bounded, ← c.length_shapes, hc]
  exact hp

end Parser

end Scripting
