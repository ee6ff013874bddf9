import Scripting.Proofs.Progress.Proceeding

/-!
What parsers answer: rules for a value and its cursor, where every failure is one definite error at a
token of the text.
-/

namespace Scripting

variable {tokens : List Token}

/-- What a reply from `c` on has to satisfy: its cursor is reached from `c`; a value, together with the
cursor behind it, satisfies `Q`; a failure is one error, at one of the tokens, and definite. -/
def Reply.Accounts {α : Type} (tokens : List Token) (c : Cursor) (Q : α → Cursor → Prop) :
    Reply α → Prop
  | .ok a d => c.Before d ∧ Q a d
  | .fail e d => c.Before d ∧ e.Definite ∧ ∃ t ∈ tokens, ∃ message, e.errors = [⟨t.span, message⟩]

namespace Parser

variable {α β : Type} {c : Cursor} {Q : α → Cursor → Prop} {R : β → Cursor → Prop}
  {message : String}

/-- What a parser answers from a cursor on satisfies `Q`, unless it fails at one of the tokens. -/
def Answers (tokens : List Token) (c : Cursor) (Q : α → Cursor → Prop) (p : Parser α) : Prop :=
  (p c).Accounts tokens c Q

theorem answers_pure {a : α} (h : Q a c) : Answers tokens c Q (pure a) :=
  ⟨.refl c, h⟩

/-- The reply of what comes behind a cursor that is reached from `c`. -/
theorem Answers.behind {p q : Parser α} {d : Cursor} (h : Answers tokens d Q q) (hd : c.Before d)
    (hpq : p c = q d) : Answers tokens c Q p := by
  unfold Answers at *
  rw [hpq]
  cases hq : q d with
  | ok a e =>
    rw [hq] at h
    exact ⟨hd.trans h.1, h.2⟩
  | fail e stop =>
    rw [hq] at h
    exact ⟨hd.trans h.1, h.2⟩

theorem Answers.bind {p : Parser α} {f : α → Parser β} (hp : Answers tokens c Q p)
    (hf : ∀ a d, Q a d → Answers tokens d R (f a)) : Answers tokens c R (p >>= f) := by
  unfold Answers at hp
  cases hpc : p c with
  | ok a d =>
    rw [hpc] at hp
    exact (hf a d hp.2).behind hp.1 (by change andThen p f c = _; rw [andThen, hpc])
  | fail e d =>
    rw [hpc] at hp
    have hreply : (p >>= f) c = .fail e d := by
      change andThen p f c = _
      rw [andThen, hpc]
    rw [Answers, hreply]
    exact hp

theorem Answers.mono {Q' : α → Cursor → Prop} {p : Parser α} (h : Answers tokens c Q p)
    (hQ : ∀ a d, Q a d → Q' a d) : Answers tokens c Q' p := by
  unfold Answers at *
  cases hp : p c with
  | ok a d =>
    rw [hp] at h
    exact ⟨h.1, hQ a d h.2⟩
  | fail e d =>
    rw [hp] at h
    exact h

theorem Answers.blame {p : Parser α} {span : Span} (h : Answers tokens c Q p) :
    Answers tokens c Q (blame span p) := by
  unfold Answers Parser.blame at *
  cases hpc : p c with
  | ok a d =>
    rw [hpc] at h
    exact h
  | fail e d =>
    rw [hpc] at h
    exact h

theorem Answers.proceeds {p : Parser α} {bound : Nat} (h : Answers tokens c Q p)
    (hQ : ∀ a d, Q a d → d.left < bound) : Proceeds c bound p := by
  unfold Answers at h
  unfold Proceeds
  cases hp : p c with
  | ok a d =>
    rw [hp] at h
    exact ⟨h.1, hQ a d h.2⟩
  | fail e d =>
    rw [hp] at h
    exact ⟨h.1, h.2.1⟩

theorem answers_failAt {t : Token} (h : t ∈ tokens) (hmessage : message ≠ "Nesting too deep") :
    Answers tokens c Q (failAt t.span message) := by
  refine ⟨.refl c, ?_, t, h, message, rfl⟩
  simpa [Failure.Definite] using hmessage

theorem answers_failHere (h : c.next ∈ tokens) (hmessage : message ≠ "Nesting too deep") :
    Answers tokens c Q (failHere message) :=
  answers_failAt h hmessage

/-! What looks at the tokens. -/

theorem answers_nextKind {f : TokenKind → Parser β} (h : Answers tokens c R (f c.next.kind)) :
    Answers tokens c R (nextKind >>= f) :=
  h

theorem answers_secondKind {f : TokenKind → Parser β}
    (h : Answers tokens c R (f ((c.rest.head?.map (·.kind)).getD .eof))) :
    Answers tokens c R (secondKind >>= f) :=
  h

theorem answers_peek {f : Token → Parser β} (h : Answers tokens c R (f c.next)) :
    Answers tokens c R (peek >>= f) :=
  h

theorem answers_location {f : Span → Parser β} (h : ∀ span, Answers tokens c R (f span)) :
    Answers tokens c R (location >>= f) :=
  h _

theorem answers_spanFrom {start : Span} {f : Span → Parser β}
    (h : ∀ span, Answers tokens c R (f span)) : Answers tokens c R (spanFrom start >>= f) :=
  h _

/-! What takes a token. -/

theorem answers_advance {f : Token → Parser β} (h : Answers tokens c.advance R (f c.next)) :
    Answers tokens c R (advance >>= f) :=
  h.behind (Cursor.before_advance c) rfl

theorem answers_skipSemicolons {f : Unit → Parser β}
    (h : Answers tokens c.skipSemicolons R (f ())) : Answers tokens c R (skipSemicolons >>= f) :=
  h.behind (Cursor.before_skipSemicolons c) rfl

/-- Takes a token of the kind, if it is the next one. -/
theorem answers_acceptKind {kind : TokenKind} {f : Bool → Parser β}
    (htrue : c.next.kind = kind → Answers tokens c.advance R (f true))
    (hfalse : Answers tokens c R (f false)) : Answers tokens c R (accept kind >>= f) := by
  by_cases h : c.next.kind = kind
  · refine (htrue h).behind (Cursor.before_advance c) ?_
    change andThen (accept kind) f c = _
    rw [andThen, accept, if_pos h]
  · refine hfalse.behind (.refl c) ?_
    change andThen (accept kind) f c = _
    rw [andThen, accept, if_neg h]

section

variable {all taken : List Leaf} {bound : Nat}

/-- The leaves of what the parser gives are those that it takes, and fewer than `bound` tokens follow
the one behind it. -/
abbrev Accounts (tokens : List Token) (all : List Leaf) (bound : Nat) (taken : List Leaf) (c : Cursor)
    (leaves : α → List Leaf) (p : Parser α) : Prop :=
  Answers tokens c (fun a d => d.Stands tokens all bound (taken ++ leaves a)) p

/-- The leaves of what is given are those in front of the cursor. -/
theorem accounts_pure {leaves : α → List Leaf} {a : α} {before : List Leaf}
    (hc : c.Stands tokens all bound before) (h : before = taken ++ leaves a) :
    Accounts tokens all bound taken c leaves (pure a) :=
  answers_pure (h ▸ hc)

theorem accounts_node {leaves : α → List Leaf} {start : Span} {node : Span → α} {before : List Leaf}
    (hc : c.Stands tokens all bound before) (h : ∀ span, before = taken ++ leaves (node span)) :
    Accounts tokens all bound taken c leaves (do
      let span ← spanFrom start
      return node span) :=
  answers_spanFrom fun span => accounts_pure hc (h span)

/-- A loop has a turn for every token that is left. -/
theorem answers_bounded {loop : Nat → Parser α} {leaves : α → List Leaf} {before : List Leaf}
    (hc : c.Stands tokens all bound before)
    (h : c.Stands tokens all (c.left + 1) before → c.left < bound →
      Accounts tokens all (c.left + 1) taken c leaves (loop (c.left + 1))) :
    Accounts tokens all bound taken c leaves (bounded loop) :=
  Answers.mono (h ⟨hc.suffix, hc.ends, hc.leaves, Nat.lt_succ_self _⟩ hc.left)
    fun _ _ hd => ⟨hd.suffix, hd.ends, hd.leaves, Nat.lt_of_lt_of_le hd.left hc.left⟩

theorem answers_take {f : Token → Parser β} (hc : c.Stands tokens all (bound + 1) taken)
    (hkind : c.next.kind.isSilent = true)
    (h : c.advance.Stands tokens all bound taken → Answers tokens c.advance R (f c.next)) :
    Answers tokens c R (advance >>= f) :=
  answers_advance (h (hc.take hkind))

theorem answers_accept {kind : TokenKind} {f : Bool → Parser β}
    (hc : c.Stands tokens all (bound + 1) taken) (hkind : kind.isSilent = true)
    (htrue : c.advance.Stands tokens all bound taken → Answers tokens c.advance R (f true))
    (hfalse : Answers tokens c R (f false)) : Answers tokens c R (accept kind >>= f) :=
  answers_acceptKind (fun h => htrue (hc.take (by rw [h, hkind]))) hfalse

/-- Takes a token that has a leaf. -/
theorem answers_expectLeaf {kind : TokenKind} (hc : c.Stands tokens all (bound + 1) taken)
    (hkind : kind ≠ .eof ∧ kind ≠ .dot) (hmessage : message ≠ "Nesting too deep") :
    Answers tokens c (fun t d => t = c.next ∧ t.kind = kind ∧ d = c.advance ∧
      d.Stands tokens all bound (taken ++ t.leaves false)) (expect kind message) := by
  unfold Answers
  by_cases hnext : c.next.kind = kind
  · rw [expect, if_pos hnext]
    exact ⟨Cursor.before_advance c, rfl, hnext, rfl, hc.advance (by rwa [hnext])⟩
  · rw [expect, if_neg hnext]
    exact answers_failHere hc.next_mem hmessage

theorem answers_expect {kind : TokenKind} {f : Token → Parser β}
    (hc : c.Stands tokens all (bound + 1) taken) (hkind : kind.isSilent = true)
    (hmessage : message ≠ "Nesting too deep")
    (h : c.advance.Stands tokens all bound taken → Answers tokens c.advance R (f c.next)) :
    Answers tokens c R (expect kind message >>= f) := by
  have hplain : kind ≠ .eof ∧ kind ≠ .dot := by constructor <;> rintro rfl <;> cases hkind
  refine (answers_expectLeaf hc hplain hmessage).bind ?_
  rintro _ _ ⟨rfl, hnext, rfl, -⟩
  exact h (hc.take (by rw [hnext, hkind]))

theorem answers_expectName (hc : c.Stands tokens all (bound + 1) taken)
    (hmessage : message ≠ "Nesting too deep") :
    Accounts tokens all bound taken c (fun name => [.name name]) (expectName message) := by
  refine Answers.bind (answers_expectLeaf hc (by simp) hmessage) fun t d h => ?_
  obtain ⟨-, hkind, -, hd⟩ := h
  rw [Token.leaves, hkind] at hd
  exact answers_pure hd

end

end Parser

end Scripting
