import Scripting.Proofs.Progress.Proceeding
import Scripting.Proofs.RoundTrip.Taking

/-!
Parsers on two texts that are the same up to a border, or to the end.

A cursor in the first text and one in the second stand in front of the same tokens, up to the border.
There the second text is cut off; or the first one ends there, and the second one goes on with a `;` that
no `else` follows. What a parser reads in front of the border of the first text, a parser of the same
production reads in the second: one rule for each way in which parsers are put together. Where the texts
are the same to the end, a parser that fails in the first one fails in the second one, with the same
messages.

Behind the border there is no second text. There the second cursor is the first one, so that the rules
say of both sides of the border that a parser goes forward.
-/

namespace Scripting

/-- What a text may go on with where `border` tokens of another one follow: its own end, or where the
other one ends a `;` that no `else` follows. Behind the end of both there is nothing. -/
inductive Shape.MayFollow : Int → List Shape → Prop where
  | nothing : MayFollow (-1) []
  | eof (border : Nat) : MayFollow border [.eof]
  | semicolon {t : Shape} (more : List Shape) (h : t.kind ≠ .keyword .elseBranch) :
      MayFollow 0 (.semicolon :: t :: more)

/-- The place up to which two texts are the same: `border` tokens of the first one follow the one that
stands there, and `tail` is what the second one has there. The border of texts that are the same is
behind their end. -/
structure Cut where
  border : Int
  tail : List Shape
  follows : Shape.MayFollow border tail

/-- The second text ends at the border. -/
def Cut.off (border : Nat) : Cut :=
  ⟨border, [.eof], .eof border⟩

/-- The second text is the first one. -/
def Cut.none : Cut :=
  ⟨-1, [], .nothing⟩

/-! Two cursors. -/

namespace Cursor

variable {cut : Cut} {c d : Cursor}

/-- The kind of the token behind the next one. -/
def secondKind (c : Cursor) : TokenKind :=
  (c.rest.head?.map (·.kind)).getD .eof

/-- The second cursor stands in front of the same tokens as the first one, up to the border. -/
inductive Trims (cut : Cut) (c d : Cursor) : Prop where
  | within (left : cut.border ≤ c.left) (ends : c.Ends)
      (shapes : d.shapes = c.shapes.take (c.left - cut.border).toNat ++ cut.tail)
  | past (left : c.left < cut.border) (ends : c.Ends) (same : d = c)

/-- What the next tokens are: the border is reached, or they are the same. -/
inductive Joins (cut : Cut) (c d : Cursor) : Prop where
  | ended (left : c.left = cut.border) (shapes : d.shapes = cut.tail)
      (kind : d.next.kind = .eof ∨ c.next.kind = .eof ∧ d.next.kind = .semicolon)
      (second : d.secondKind ≠ .keyword .elseBranch)
  | same (left : c.left ≠ cut.border) (shape : d.next.shape = c.next.shape)
      (advance : c.advance.Trims cut d.advance) (second : d.secondKind = d.advance.next.kind)

theorem Trims.ends (h : c.Trims cut d) : c.Ends := by
  cases h <;> assumption

theorem trims_self (cut : Cut) (hc : c.Ends) (hleft : c.left < cut.border) : c.Trims cut c :=
  .past hleft hc rfl

theorem secondKind_of_shapes {t u : Shape} {more : List Shape} (h : c.shapes = t :: u :: more) :
    c.secondKind = u.kind := by
  obtain ⟨last, next, rest, left, left_eq⟩ := c
  cases rest with
  | nil => simp [shapes] at h
  | cons token rest =>
    simp only [shapes, List.map_cons, List.cons.injEq] at h
    exact congrArg Shape.kind h.2.1

theorem rest_of_shapes {t : Shape} (h : c.shapes = [t]) : c.rest = [] := by
  simp only [shapes, List.cons.injEq, List.map_eq_nil_iff] at h
  exact h.2

theorem map_shape_ofTokens {tokens : List Token} (h : tokens ≠ []) :
    (ofTokens tokens).shapes = tokens.map Token.shape := by
  cases tokens with
  | nil => exact absurd rfl h
  | cons t rest => rfl

/-- The last token is the `eof`. -/
theorem kind_eq_eof_iff (hc : c.Ends) : c.next.kind = .eof ↔ c.left = 0 := by
  unfold Ends at hc
  rw [c.left_eq]
  cases hrest : c.rest with
  | nil =>
    rw [hrest] at hc
    exact iff_of_true hc rfl
  | cons t rest =>
    rw [hrest] at hc
    exact iff_of_false hc.1 (by simp)

/-- A cursor with tokens behind the next one is not at the end. -/
theorem kind_ne_eof_of_left (hc : c.Ends) (hleft : 0 < c.left) : c.next.kind ≠ .eof := by
  rw [ne_eq, kind_eq_eof_iff hc]
  omega

theorem shapes_eq (hc : c.Ends) (hkind : c.next.kind ≠ .eof) :
    c.shapes = c.next.shape :: c.advance.shapes := by
  rw [shapes, (advance_eq hc hkind).1]
  rfl

/-- The token behind the next one comes next when that is taken. -/
theorem secondKind_eq (hc : c.Ends) : c.secondKind = c.advance.next.kind := by
  by_cases hkind : c.next.kind = .eof
  · have hrest : c.rest = [] := by
      have hleft := (kind_eq_eof_iff hc).1 hkind
      rw [c.left_eq] at hleft
      exact List.length_eq_zero_iff.1 hleft
    rw [advance_of_eof hkind, hkind, secondKind, hrest]
    rfl
  · rw [secondKind, (advance_eq hc hkind).1]
    rfl

theorem secondKind_of_advance {t : Shape} {more : List Shape} (h : c.shapes = t :: more)
    (ht : t.kind ≠ .eof) (hmore : more ≠ []) : c.secondKind = c.advance.next.kind := by
  have hadvance := shapes_advance h ht hmore
  obtain ⟨u, more, rfl⟩ := List.exists_cons_of_ne_nil hmore
  rw [secondKind_of_shapes h, kind_of_shapes hadvance]

/-- The second text is not empty. -/
theorem taken_ne_nil (cut : Cut) (c : Cursor) :
    c.shapes.take (c.left - cut.border).toNat ++ cut.tail ≠ [] := by
  obtain ⟨border, tail, follows⟩ := cut
  cases follows with
  | nothing => simp [shapes]
  | eof => simp
  | semicolon => simp

theorem joins_ended (hc : c.Ends) (left : c.left = cut.border) (shapes : d.shapes = cut.tail) :
    Joins cut c d := by
  obtain ⟨border, tail, follows⟩ := cut
  cases follows with
  | nothing => exact absurd left (by simp)
  | eof border =>
    have hsecond : d.secondKind = .eof := by rw [secondKind, rest_of_shapes shapes]; rfl
    exact .ended left shapes (.inl (kind_of_shapes shapes)) (by simp [hsecond])
  | semicolon more h =>
    refine .ended left shapes (.inr ⟨(kind_eq_eof_iff hc).2 (Int.natCast_eq_zero.1 left), kind_of_shapes shapes⟩) ?_
    rwa [secondKind_of_shapes shapes]

/-- At the end of both texts nothing moves. -/
theorem joins_eof (hc : c.Ends) (hkind : c.next.kind = .eof) (left : cut.border < c.left)
    (h : c.Trims cut d) (hshapes : d.shapes = c.shapes.take (c.left - cut.border).toNat ++ cut.tail) :
    Joins cut c d := by
  have hleft := (kind_eq_eof_iff hc).1 hkind
  have hd : d.shapes = [c.next.shape] := by
    have hone : c.shapes = [c.next.shape] := by
      rw [shapes, List.length_eq_zero_iff.1 (c.left_eq.symm.trans hleft)]
      rfl
    obtain ⟨border, tail, follows⟩ := cut
    cases follows with
    | nothing => simpa [hleft, hone] using hshapes
    | eof => simp only at left; omega
    | semicolon => simp only at left; omega
  have hkind' : d.next.kind = .eof := (kind_of_shapes hd).trans hkind
  refine .same (by omega) (List.cons.inj hd).1 ?_ ?_
  · rwa [advance_of_eof hkind, advance_of_eof hkind']
  · rw [advance_of_eof hkind', hkind', secondKind, rest_of_shapes hd]
    rfl

theorem Trims.joins (h : c.Trims cut d) : Joins cut c d := by
  cases h with
  | past left ends same =>
    subst same
    have hle := left_advance_le ends
    exact .same (by omega) rfl (trims_self cut ends.advance (by omega)) (secondKind_eq ends)
  | within left ends shapes =>
    by_cases hborder : c.left = cut.border
    · apply joins_ended ends hborder
      rw [shapes, hborder, Int.sub_self, Int.toNat_zero, List.take_zero, List.nil_append]
    by_cases hkind : c.next.kind = .eof
    · exact joins_eof ends hkind (by omega) (.within left ends shapes) shapes
    · have hstep := (advance_eq ends hkind).2
      have hcount : (c.left - cut.border).toNat = (c.advance.left - cut.border).toNat + 1 := by omega
      rw [hcount, shapes_eq ends hkind, List.take_succ_cons, List.cons_append] at shapes
      have hshape : d.next.shape = c.next.shape := by
        rw [Cursor.shapes, List.cons.injEq] at shapes
        exact shapes.1
      have hmore := taken_ne_nil cut c.advance
      exact .same hborder hshape
        (.within (by omega) ends.advance (shapes_advance shapes hkind hmore))
        (secondKind_of_advance shapes hkind hmore)

/-- Every text can be cut off anywhere. -/
theorem exists_trims (hc : c.Ends) (cut : Cut) : ∃ d, c.Trims cut d := by
  by_cases hleft : c.left < cut.border
  · exact ⟨c, trims_self cut hc hleft⟩
  · let tail : List Token := cut.tail.map fun t => ⟨t.kind, t.lexeme, default⟩
    have hshapes : ((c.next :: c.rest).take (c.left - cut.border).toNat ++ tail).map Token.shape =
        c.shapes.take (c.left - cut.border).toNat ++ cut.tail := by
      simp [shapes, tail, Token.shape, List.map_take, Function.comp_def]
    refine ⟨ofTokens ((c.next :: c.rest).take (c.left - cut.border).toNat ++ tail), ?_⟩
    refine .within (by omega) hc ?_
    rwa [map_shape_ofTokens fun hnil => taken_ne_nil cut c (by rw [← hshapes, hnil]; rfl)]

/-! Semicolons. -/

theorem skipSemicolons_eq_self (h : c.next.kind ≠ .semicolon) : c.skipSemicolons = c := by
  unfold skipSemicolons
  cases c.left with
  | zero => rfl
  | succ n => rw [skipSemicolonsUpTo, if_neg h]

theorem skipSemicolons_advance (h : c.next.kind = .semicolon) :
    c.skipSemicolons = c.advance.skipSemicolons := by
  obtain ⟨last, next, rest, left, rfl⟩ := c
  cases rest with
  | nil => rfl
  | cons token rest =>
    have hkind : next.kind = .semicolon := h
    simp [skipSemicolons, skipSemicolonsUpTo, advance, hkind]

/-- Both cursors move behind the same `;`, unless the first one comes to the border. -/
theorem Trims.skipSemicolons (h : c.Trims cut d) :
    c.skipSemicolons.left < cut.border ∨
      (c.skipSemicolons.left = cut.border ∧ ∃ d' : Cursor, d.Before d' ∧ d'.shapes = cut.tail ∧
        d.skipSemicolons = d'.skipSemicolons) ∨
      c.skipSemicolons.left ≠ cut.border ∧ c.skipSemicolons.Trims cut d.skipSemicolons := by
  have hends := h.ends
  induction hleft : c.left using Nat.strongRecOn generalizing c d with
  | ind left ih =>
    subst hleft
    by_cases hkind : c.next.kind = .semicolon
    · have hstep := left_advance hends (by simp [hkind])
      rw [skipSemicolons_advance hkind]
      cases h.joins with
      | ended hborder =>
        have hle := (before_skipSemicolons c.advance).left_le hends.advance
        exact .inl (by omega)
      | same _ shape advance =>
        have hkind' : d.next.kind = .semicolon := (congrArg Shape.kind shape).trans hkind
        rw [skipSemicolons_advance hkind']
        obtain h | ⟨hleft, d', hbefore, hd'⟩ | h := ih _ hstep advance hends.advance rfl
        · exact .inl h
        · exact .inr (.inl ⟨hleft, d', (before_advance d).trans hbefore, hd'⟩)
        · exact .inr (.inr h)
    · rw [skipSemicolons_eq_self hkind]
      cases h.joins with
      | ended hborder hshapes => exact .inr (.inl ⟨hborder, d, .refl d, hshapes, rfl⟩)
      | same hborder shape =>
        have hkind' : d.next.kind ≠ .semicolon := by
          rw [show d.next.kind = c.next.kind from congrArg Shape.kind shape]
          exact hkind
        rw [skipSemicolons_eq_self hkind']
        exact .inr (.inr ⟨hborder, h⟩)

end Cursor

/-! Replies in the two texts. -/

/-- A failure of a loop or a nesting that was cut short. -/
def Reply.Stalls {α : Type} : Reply α → Prop
  | .ok .. => False
  | .fail e _ => ¬ e.Definite

/-- A failure with the same messages, or one of a loop or a nesting that was cut short. -/
def Reply.FailsLike {α : Type} (e : Failure) : Reply α → Prop
  | .ok .. => False
  | .fail e' _ => e'.Definite → e.errors.map (·.message) = e'.errors.map (·.message)

theorem Reply.Stalls.failsLike {α : Type} {r : Reply α} (h : r.Stalls) (e : Failure) : r.FailsLike e := by
  cases r with
  | ok => exact h
  | fail => exact fun hdefinite => absurd hdefinite h

namespace Parser

variable {α β γ δ : Type} {cut : Cut} {c d : Cursor} {view : α → γ} {view' : β → δ}
  {kind : TokenKind} {p q : Parser α}

theorem bind_eq_ok {p : Parser α} {f : α → Parser β} {b : β} {m : Cursor}
    (h : (p >>= f) c = .ok b m) : ∃ a m₁, p c = .ok a m₁ ∧ f a m₁ = .ok b m := by
  change andThen p f c = _ at h
  unfold andThen at h
  cases hpc : p c with
  | ok a m₁ =>
    rw [hpc] at h
    exact ⟨a, m₁, rfl, h⟩
  | fail e m₁ =>
    rw [hpc] at h
    cases h

theorem bind_of_ok {p : Parser α} {a : α} {m : Cursor} (f : α → Parser β) (h : p c = .ok a m) :
    (p >>= f) c = f a m := by
  change andThen p f c = _
  rw [andThen, h]

theorem blame_eq_ok {p : Parser α} {span : Span} {a : α} {m : Cursor}
    (h : blame span p c = .ok a m) : p c = .ok a m := by
  unfold blame at h
  cases hpc : p c with
  | ok a₁ m₁ =>
    rw [hpc] at h
    exact h
  | fail e m₁ =>
    rw [hpc] at h
    cases h

/-- What the first parser reads from `c` on in front of the border, the second one reads from `d` on:
up to what `view` does not show, both give the same value. Where there is no border, the second parser
fails like the first one. It may also be cut short. -/
structure Tracks (cut : Cut) (c d : Cursor) (view : α → γ) (p q : Parser α) : Prop where
  reads : ∀ a m, p c = .ok a m → c.Before m ∧
    (cut.border ≤ m.left → (∃ b n, q d = .ok b n ∧ view a = view b ∧ m.Trims cut n) ∨ (q d).Stalls)
  fails : cut.border < 0 → ∀ e m, p c = .fail e m → e.Definite → (q d).FailsLike e

/-- The first parser also takes a token. So at the border it does not matter what the second one
does. -/
structure Consumes (cut : Cut) (c d : Cursor) (view : α → γ) (p q : Parser α) : Prop where
  tracks : Tracks cut c d view p q
  takes : ∀ a m, p c = .ok a m → m.left < c.left

/-- The first parser tracks `q`, or at the border a parser that has seen what may stand there. -/
def Forks (cut : Cut) (c d : Cursor) (view : α → γ) (p q : Parser α)
    (other : TokenKind → Parser α) : Prop :=
  (c.left ≠ cut.border → Tracks cut c d view p q) ∧
    (c.left = cut.border → ∀ kind, kind = .eof ∨ kind = .semicolon →
      Tracks cut c d view p (other kind))

/-- Only the two replies count. -/
theorem Tracks.congr {p p' q q' : Parser α} (h : Tracks cut c d view p' q') (hp : p c = p' c)
    (hq : q d = q' d) : Tracks cut c d view p q := by
  constructor
  · rw [hp, hq]
    exact h.reads
  · rw [hp, hq]
    exact h.fails

/-- What passes the border tracks anything. -/
theorem tracks_of_past (hcut : 0 ≤ cut.border)
    (h : ∀ a m, p c = .ok a m → c.Before m ∧ m.left < cut.border) : Tracks cut c d view p q where
  reads a m hp := by
    obtain ⟨hbefore, hleft⟩ := h a m hp
    exact ⟨hbefore, fun hborder => absurd hleft (by omega)⟩
  fails hnone := absurd hnone (by omega)

theorem forks_self {other : TokenKind → Parser α} (h : Tracks cut c d view p q)
    (heof : other .eof = q) (hsemicolon : other .semicolon = q) : Forks cut c d view p q other := by
  refine ⟨fun _ => h, ?_⟩
  rintro - kind (rfl | rfl)
  · rwa [heof]
  · rwa [hsemicolon]

theorem Consumes.tracks_of_border {p q other : Parser α} (h : Consumes cut c d view p q)
    (hleft : c.left = cut.border) : Tracks cut c d view p other := by
  apply tracks_of_past (by omega)
  intro a m hok
  have htakes := h.takes a m hok
  exact ⟨(h.tracks.reads a m hok).1, by omega⟩

theorem Consumes.forks {other : TokenKind → Parser α} (h : Consumes cut c d view p q) :
    Forks cut c d view p q other :=
  ⟨fun _ => h.tracks, fun hleft _ _ => h.tracks_of_border hleft⟩

theorem tracks_pure {a b : α} (h : c.Trims cut d) (hab : view a = view b) :
    Tracks cut c d view (pure a) (pure b) where
  reads := by
    rintro a' m ⟨⟩
    exact ⟨.refl c, fun _ => .inl ⟨b, d, rfl, hab, h⟩⟩
  fails := nofun

theorem consumes_of_fail {e : Failure} {m : Cursor} (h : p c = .fail e m)
    (hfails : cut.border < 0 → e.Definite → (q d).FailsLike e) : Consumes cut c d view p q where
  tracks.reads a m' hok := by rw [h] at hok; cases hok
  tracks.fails hnone e' m' hfail := by
    rw [h] at hfail
    cases hfail
    exact hfails hnone
  takes a m' hok := by rw [h] at hok; cases hok

theorem consumes_failAt {span span' : Span} {message : String} :
    Consumes cut c d view (failAt span message) (failAt span' message) :=
  consumes_of_fail rfl fun _ _ _ => rfl

theorem consumes_failHere {message : String} :
    Consumes cut c d view (failHere message) (failHere message) :=
  consumes_of_fail rfl fun _ _ _ => rfl

theorem exhausted_stalls (d : Cursor) : (exhausted d : Reply α).Stalls := by
  simp [exhausted, failHere, failAt, Reply.Stalls, Failure.Definite]

theorem consumes_exhausted {q : Parser α} : Consumes cut c d view exhausted q :=
  consumes_of_fail rfl fun _ h => absurd h (exhausted_stalls (α := α) c)

theorem bind_stalls {q : Parser α} (f : α → Parser β) (h : (q d).Stalls) :
    ((q >>= f) d).Stalls := by
  change (andThen q f d).Stalls
  unfold andThen
  cases hqd : q d with
  | ok a n =>
    rw [hqd] at h
    exact absurd h id
  | fail e n =>
    rw [hqd] at h
    exact h

theorem blame_stalls {q : Parser α} {span : Span} (h : (q d).Stalls) : (blame span q d).Stalls := by
  unfold blame
  cases hqd : q d with
  | ok a n =>
    rw [hqd] at h
    exact h
  | fail e n =>
    rw [hqd] at h
    exact h

theorem bind_failsLike {q : Parser α} {e : Failure} (f : α → Parser β) (h : (q d).FailsLike e) :
    ((q >>= f) d).FailsLike e := by
  change (andThen q f d).FailsLike e
  unfold andThen
  cases hqd : q d with
  | ok a n =>
    rw [hqd] at h
    exact absurd h id
  | fail e' n =>
    rw [hqd] at h
    exact h

theorem bind_eq_fail {p : Parser α} {f : α → Parser β} {e : Failure} {m : Cursor}
    (h : (p >>= f) c = .fail e m) : p c = .fail e m ∨ ∃ a m₁, p c = .ok a m₁ ∧ f a m₁ = .fail e m := by
  change andThen p f c = _ at h
  unfold andThen at h
  cases hpc : p c with
  | ok a m₁ =>
    rw [hpc] at h
    exact .inr ⟨a, m₁, rfl, h⟩
  | fail e' m₁ =>
    rw [hpc] at h
    cases h
    exact .inl rfl

/-! Parsers behind each other. -/

section

variable {f f' : α → Parser β}

/-- What follows a parser goes forward from where the parser stops, on either side of the border. -/
theorem Tracks.before_rest {a : α} {b : β} {m₁ m : Cursor} (hc : c.Ends)
    (hp : Tracks cut c d view p q)
    (hf : ∀ a b m n, m.Trims cut n → view a = view b → Tracks cut m n view' (f a) (f' b))
    (hfirst : p c = .ok a m₁) (hrest : f a m₁ = .ok b m) :
    c.Before m₁ ∧ m₁.Ends ∧ m₁.Before m := by
  have hbefore := (hp.reads a m₁ hfirst).1
  have hends := hbefore.ends hc
  obtain ⟨n, hn⟩ := Cursor.exists_trims hends cut
  exact ⟨hbefore, hends, ((hf a a m₁ n hn rfl).reads b m hrest).1⟩

theorem Tracks.bind (hc : c.Ends) (hp : Tracks cut c d view p q)
    (hf : ∀ a b m n, m.Trims cut n → view a = view b → Tracks cut m n view' (f a) (f' b)) :
    Tracks cut c d view' (p >>= f) (q >>= f') where
  reads b m hok := by
    obtain ⟨a, m₁, hfirst, hrest⟩ := bind_eq_ok hok
    obtain ⟨hbefore, hends, hmore⟩ := hp.before_rest hc hf hfirst hrest
    have hle := hmore.left_le hends
    refine ⟨hbefore.trans hmore, fun hborder => ?_⟩
    obtain ⟨a', n₁, hqd, hview, htrims⟩ | hstalls := (hp.reads a m₁ hfirst).2 (by omega)
    · rw [bind_of_ok f' hqd]
      exact ((hf a a' m₁ n₁ htrims hview).reads b m hrest).2 hborder
    · exact .inr (bind_stalls f' hstalls)
  fails hnone e m hfail hdefinite := by
    obtain hfirst | ⟨a, m₁, hfirst, hrest⟩ := bind_eq_fail hfail
    · exact bind_failsLike f' (hp.fails hnone e m hfirst hdefinite)
    · obtain ⟨a', n₁, hqd, hview, htrims⟩ | hstalls := (hp.reads a m₁ hfirst).2 (by omega)
      · rw [bind_of_ok f' hqd]
        exact (hf a a' m₁ n₁ htrims hview).fails hnone e m hrest hdefinite
      · exact bind_failsLike f' (hstalls.failsLike e)

theorem Consumes.bind (hc : c.Ends) (hp : Consumes cut c d view p q)
    (hf : ∀ a b m n, m.Trims cut n → view a = view b → Tracks cut m n view' (f a) (f' b)) :
    Consumes cut c d view' (p >>= f) (q >>= f') where
  tracks := hp.tracks.bind hc hf
  takes := by
    intro b m hok
    obtain ⟨a, m₁, hfirst, hrest⟩ := bind_eq_ok hok
    obtain ⟨-, hends, hmore⟩ := hp.tracks.before_rest hc hf hfirst hrest
    exact Nat.lt_of_le_of_lt (hmore.left_le hends) (hp.takes a m₁ hfirst)

/-- A parser that takes a token may stand behind one that does not. -/
theorem Tracks.bind_consumes (hc : c.Ends) (hp : Tracks cut c d view p q)
    (hf : ∀ a b m n, m.Trims cut n → view a = view b →
      Consumes cut m n view' (f a) (f' b)) :
    Consumes cut c d view' (p >>= f) (q >>= f') where
  tracks := hp.bind hc fun a b m n hn hab => (hf a b m n hn hab).tracks
  takes := by
    intro b m hok
    obtain ⟨a, m₁, hfirst, hrest⟩ := bind_eq_ok hok
    have hbefore := (hp.reads a m₁ hfirst).1
    obtain ⟨n, hn⟩ := Cursor.exists_trims (hbefore.ends hc) cut
    exact Nat.lt_of_lt_of_le ((hf a a m₁ n hn rfl).takes b m hrest) (hbefore.left_le hc)

end

theorem Tracks.blame {span span' : Span} (h : Tracks cut c d view p q) :
    Tracks cut c d view (blame span p) (blame span' q) where
  reads a m hok := by
    obtain ⟨hbefore, htracks⟩ := h.reads a m (blame_eq_ok hok)
    refine ⟨hbefore, fun hborder => ?_⟩
    obtain ⟨b, n, hqd, hab⟩ | hstalls := htracks hborder
    · exact .inl ⟨b, n, by rw [Parser.blame, hqd], hab⟩
    · exact .inr (blame_stalls hstalls)
  fails hnone e m hfail hdefinite := by
    obtain ⟨e', hpc, herrors⟩ : ∃ e', p c = .fail e' m ∧ e'.errors = e.errors := by
      unfold Parser.blame at hfail
      cases hpc : p c with
      | ok => rw [hpc] at hfail; cases hfail
      | fail e' =>
        rw [hpc] at hfail
        cases hfail
        exact ⟨e', rfl, rfl⟩
    have hlike := h.fails hnone e' m hpc (by rwa [Failure.Definite, herrors])
    unfold Parser.blame
    cases hqd : q d with
    | ok => rw [hqd] at hlike; exact hlike
    | fail e'' =>
      rw [hqd] at hlike
      rwa [Reply.FailsLike, herrors] at hlike

theorem Consumes.blame {span span' : Span} (h : Consumes cut c d view p q) :
    Consumes cut c d view (blame span p) (blame span' q) :=
  ⟨h.tracks.blame, fun a m hok => h.takes a m (blame_eq_ok hok)⟩

/-- A loop is tracked by a loop with any bound, if it is by those that can make a turn. -/
theorem tracks_limit {p : Parser α} (loop : Nat → Parser α) (hzero : loop 0 = exhausted)
    (hsucc : ∀ limit, Tracks cut c d view p (loop (limit + 1))) (limit : Nat) :
    Tracks cut c d view p (loop limit) := by
  cases limit with
  | succ limit => exact hsucc limit
  | zero =>
    have hstalls : (loop 0 d).Stalls := by
      rw [hzero]
      exact exhausted_stalls d
    exact ⟨fun a m hok => ⟨((hsucc 0).reads a m hok).1, fun _ => .inr hstalls⟩,
      fun _ e _ _ _ => hstalls.failsLike e⟩

theorem tracks_bounded {loop loop' : Nat → Parser α}
    (h : ∀ limit limit', Tracks cut c d view (loop limit) (loop' limit')) :
    Tracks cut c d view (bounded loop) (bounded loop') :=
  (h (c.left + 1) (d.left + 1)).congr rfl rfl

/-! What looks at the tokens. -/

theorem kind_eq_of_shape {t u : Token} (h : t.shape = u.shape) : t.kind = u.kind :=
  congrArg Shape.kind h

theorem peek_bind (f : Token → Parser β) (c : Cursor) : (peek >>= f) c = f c.next c :=
  rfl

theorem nextKind_bind (f : TokenKind → Parser β) (c : Cursor) :
    (nextKind >>= f) c = f c.next.kind c :=
  rfl

theorem bind_pure_eq (p : Parser α) : (p >>= pure) = p := by
  funext c
  change andThen p result c = p c
  unfold andThen
  cases p c <;> rfl

/-- The next kind is the same, unless the border is reached. -/
theorem tracks_nextKind {f f' : TokenKind → Parser β} (h : c.Trims cut d)
    (hf : Forks cut c d view' (f c.next.kind) (f' c.next.kind) f') :
    Tracks cut c d view' (nextKind >>= f) (nextKind >>= f') := by
  cases h.joins with
  | ended left _ kind => exact (hf.2 left d.next.kind (kind.imp_right And.right)).congr rfl rfl
  | same left shape => exact (hf.1 left).congr rfl (by rw [nextKind_bind, kind_eq_of_shape shape])

theorem consumes_nextKind {f f' : TokenKind → Parser β} (h : c.Trims cut d)
    (hf : Consumes cut c d view' (f c.next.kind) (f' c.next.kind)) :
    Consumes cut c d view' (nextKind >>= f) (nextKind >>= f') :=
  ⟨tracks_nextKind h hf.forks, hf.takes⟩

/-- The next token is of the same shape, unless the border is reached. -/
theorem consumes_peek {f f' : Token → Parser β} (h : c.Trims cut d)
    (hf : ∀ t : Token, t.shape = c.next.shape → Consumes cut c d view' (f c.next) (f' t)) :
    Consumes cut c d view' (peek >>= f) (peek >>= f') := by
  constructor
  · cases h.joins with
    | ended left => exact ((hf c.next rfl).tracks_of_border left).congr rfl rfl
    | same _ shape => exact (hf d.next shape).tracks.congr rfl rfl
  · exact (hf c.next rfl).takes

theorem tracks_location {f f' : Span → Parser β}
    (h : ∀ span span', Tracks cut c d view' (f span) (f' span')) :
    Tracks cut c d view' (location >>= f) (location >>= f') :=
  (h c.next.span d.next.span).congr rfl rfl

theorem tracks_spanFrom {start start' : Span} {f f' : Span → Parser β}
    (h : ∀ span span', Tracks cut c d view' (f span) (f' span')) :
    Tracks cut c d view' (spanFrom start >>= f) (spanFrom start' >>= f') :=
  (h (start.join c.last) (start'.join d.last)).congr rfl rfl

/-- The end of a production: a node with its span. -/
theorem tracks_node {start start' : Span} {node node' : Span → β} (h : c.Trims cut d)
    (hnode : ∀ span span', view' (node span) = view' (node' span')) :
    Tracks cut c d view' (spanFrom start >>= fun span => pure (node span))
      (spanFrom start' >>= fun span => pure (node' span)) :=
  tracks_spanFrom fun span span' => tracks_pure h (hnode span span')

/-! What takes a token. -/

/-- Taking a token that is the same in both texts. At the border it is taken in the first one only, and
what follows is behind the border. -/
theorem consumes_take {p q : Parser β} (f f' : Token → Parser β) (h : c.Trims cut d)
    (hkind : c.next.kind ≠ .eof) (hp : p c = f c.next c.advance)
    (hq : d.next.shape = c.next.shape → q d = f' d.next d.advance)
    (hf : ∀ t n, t.shape = c.next.shape → c.advance.Trims cut n →
      Tracks cut c.advance n view' (f c.next) (f' t)) :
    Consumes cut c d view' p q := by
  have hadvance := Cursor.before_advance c
  have hleft := Cursor.left_advance h.ends hkind
  have htakes : ∀ b m, p c = .ok b m → c.Before m ∧ m.left < c.left := by
    intro b m hok
    rw [hp] at hok
    obtain ⟨n, hn⟩ := Cursor.exists_trims h.ends.advance cut
    have hbefore := ((hf c.next n rfl hn).reads b m hok).1
    have hle := hbefore.left_le h.ends.advance
    exact ⟨hadvance.trans hbefore, by omega⟩
  refine ⟨?_, fun b m hok => (htakes b m hok).2⟩
  cases h.joins with
  | ended left =>
    apply tracks_of_past (by omega)
    rw [← left]
    exact fun b m hok => (htakes b m hok).imp_right Int.ofNat_lt.2
  | same _ shape htrims =>
    obtain ⟨hreads, hfails⟩ := hf d.next d.advance shape htrims
    rw [← hp, ← hq shape] at hreads hfails
    exact ⟨fun b m hok => ⟨(htakes b m hok).1, (hreads b m hok).2⟩, hfails⟩

theorem consumes_advance {f f' : Token → Parser β} (h : c.Trims cut d)
    (hkind : c.next.kind ≠ .eof)
    (hf : ∀ t n, t.shape = c.next.shape → c.advance.Trims cut n →
      Tracks cut c.advance n view' (f c.next) (f' t)) :
    Consumes cut c d view' (advance >>= f) (advance >>= f') :=
  consumes_take f f' h hkind rfl (fun _ => rfl) hf

/-- A token that one branch takes, whatever it says. -/
theorem forks_advance {p q : Parser β} {other : TokenKind → Parser β} (h : c.Trims cut d)
    (hkind : c.next.kind ≠ .eof)
    (hpq : ∀ n, c.advance.Trims cut n → Tracks cut c.advance n view' p q) :
    Forks cut c d view' (advance >>= fun _ => p) (advance >>= fun _ => q) other :=
  (consumes_advance h hkind fun _ n _ hn => hpq n hn).forks

theorem consumes_expect {message : String} {f f' : Token → Parser β}
    (h : c.Trims cut d) (heof : kind ≠ .eof)
    (hf : ∀ t n, t.shape = c.next.shape → c.advance.Trims cut n →
      Tracks cut c.advance n view' (f c.next) (f' t)) :
    Consumes cut c d view' (expect kind message >>= f) (expect kind message >>= f') := by
  by_cases hkind : c.next.kind = kind
  · refine consumes_take f f' h (by rwa [hkind]) ?_ (fun shape => ?_) hf
    · change andThen (expect kind message) f c = _
      rw [andThen, expect, if_pos hkind]
      rfl
    · change andThen (expect kind message) f' d = _
      rw [andThen, expect, if_pos ((kind_eq_of_shape shape).trans hkind)]
      rfl
  · have hfail {c : Cursor} (f : Token → Parser β) (hkind : c.next.kind ≠ kind) :
        (expect kind message >>= f) c = failHere message c := by
      change andThen (expect kind message) f c = _
      rw [andThen, expect, if_neg hkind]
      rfl
    apply consumes_of_fail (hfail f hkind)
    intro hnone _
    cases h.joins with
    | ended left => omega
    | same _ shape =>
      rw [hfail f' (by rwa [kind_eq_of_shape shape])]
      exact fun _ => rfl

theorem accept_of_kind (f : Bool → Parser β) (h : c.next.kind = kind) :
    (accept kind >>= f) c = f true c.advance := by
  change andThen (accept kind) f c = _
  rw [andThen, accept, if_pos h]

theorem accept_of_kind_ne (f : Bool → Parser β) (h : c.next.kind ≠ kind) :
    (accept kind >>= f) c = f false c := by
  change andThen (accept kind) f c = _
  rw [andThen, accept, if_neg h]

theorem consumes_accepted {f f' : Bool → Parser β} (h : c.Trims cut d) (heof : kind ≠ .eof)
    (hkind : c.next.kind = kind)
    (htrue : ∀ n, c.advance.Trims cut n → Tracks cut c.advance n view' (f true) (f' true)) :
    Consumes cut c d view' (accept kind >>= f) (accept kind >>= f') :=
  consumes_take (fun _ => f true) (fun _ => f' true) h (by rwa [hkind]) (accept_of_kind f hkind)
    (fun shape => accept_of_kind f' ((kind_eq_of_shape shape).trans hkind))
    fun _ n _ hn => htrue n hn

theorem tracks_accept {f f' : Bool → Parser β} (h : c.Trims cut d)
    (hends : kind ≠ .eof ∧ kind ≠ .semicolon)
    (htrue : ∀ n, c.advance.Trims cut n → Tracks cut c.advance n view' (f true) (f' true))
    (hfalse : Tracks cut c d view' (f false) (f' false)) :
    Tracks cut c d view' (accept kind >>= f) (accept kind >>= f') := by
  by_cases hkind : c.next.kind = kind
  · exact (consumes_accepted h hends.1 hkind htrue).tracks
  · have hkind' : d.next.kind ≠ kind := by
      cases h.joins with
      | ended _ _ hnext =>
        obtain hnext | ⟨-, hnext⟩ := hnext
        · rw [hnext]
          exact hends.1.symm
        · rw [hnext]
          exact hends.2.symm
      | same _ shape => rwa [kind_eq_of_shape shape]
    exact hfalse.congr (accept_of_kind_ne f hkind) (accept_of_kind_ne f' hkind')

/-- If a token is taken anyway, it may also be a `;`. -/
theorem consumes_accept {f f' : Bool → Parser β} (h : c.Trims cut d) (heof : kind ≠ .eof)
    (htrue : ∀ n, c.advance.Trims cut n → Tracks cut c.advance n view' (f true) (f' true))
    (hfalse : Consumes cut c d view' (f false) (f' false)) :
    Consumes cut c d view' (accept kind >>= f) (accept kind >>= f') := by
  by_cases hkind : c.next.kind = kind
  · exact consumes_accepted h heof hkind htrue
  have hreply := accept_of_kind_ne f hkind
  constructor
  · cases h.joins with
    | ended left => exact (hfalse.tracks_of_border left).congr hreply rfl
    | same _ shape =>
      rw [← kind_eq_of_shape shape] at hkind
      exact hfalse.tracks.congr hreply (accept_of_kind_ne f' hkind)
  · rw [hreply]
    exact hfalse.takes

theorem tracks_accept_pure (h : c.Trims cut d) (hends : kind ≠ .eof ∧ kind ≠ .semicolon) :
    Tracks cut c d id (accept kind) (accept kind) := by
  have hbind : Tracks cut c d id (accept kind >>= pure) (accept kind >>= pure) :=
    tracks_accept h hends (fun _ h₁ => tracks_pure h₁ rfl) (tracks_pure h rfl)
  rwa [bind_pure_eq] at hbind

/-- What comes behind any number of `;`. -/
theorem consumes_skipSemicolons {f f' : Unit → Parser β} (h : c.Trims cut d)
    (hf : ∀ m n, m.Trims cut n → Consumes cut m n view' (f ()) (f' ())) :
    Consumes cut c d view' (skipSemicolons >>= f) (skipSemicolons >>= f') := by
  have hskip := Cursor.before_skipSemicolons c
  have hends := hskip.ends h.ends
  have hle := hskip.left_le h.ends
  obtain ⟨n, hn⟩ := Cursor.exists_trims hends cut
  have hbehind := hf _ n hn
  refine ⟨⟨fun b m hok => ?_, fun hnone e m hfail => ?_⟩, fun b m hok => ?_⟩
  · have htakes := hbehind.takes b m hok
    refine ⟨hskip.trans (hbehind.tracks.reads b m hok).1, fun hborder => ?_⟩
    obtain hpast | ⟨hpast, -⟩ | ⟨-, htrims⟩ := h.skipSemicolons
    · omega
    · omega
    · exact ((hf _ _ htrims).tracks.reads b m hok).2 hborder
  · obtain hpast | ⟨hpast, -⟩ | ⟨-, htrims⟩ := h.skipSemicolons
    · omega
    · omega
    · exact (hf _ _ htrims).tracks.fails hnone e m hfail
  · exact Nat.lt_of_lt_of_le (hbehind.takes b m hok) hle

theorem consumes_expectName {message : String} (h : c.Trims cut d) :
    Consumes cut c d id (expectName message) (expectName message) := by
  apply consumes_expect h (by simp)
  intro t n shape hn
  exact tracks_pure hn (congrArg Shape.lexeme shape).symm

end Parser

end Scripting
