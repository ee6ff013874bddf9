import Scripting.Proofs.RoundTrip.Operand
import Scripting.Proofs.RoundTrip.Rebuilding

/-!
Blocks, `switch` bodies and functions are read back from their shapes.
-/

namespace Scripting

/-- The tokens behind an item: none of them belongs to the statement of the item. -/
theorem Item.head?_shapesAll {items : List Item} (h : ∀ item ∈ items, item.statement.Legible)
    (more : List Shape) :
    ∃ t, (Item.shapesAll items ++ .rightBrace :: more).head? = some t ∧
      t.kind ≠ .keyword .elseBranch := by
  cases items with
  | nil => exact ⟨.rightBrace, rfl, by simp [Shape.rightBrace]⟩
  | cons item items =>
    obtain ⟨label, statement⟩ := item
    have hlegible := h (.mk label statement) (by simp)
    obtain ⟨t, ht, hbegins⟩ := statement.head?_shapes hlegible.isRead hlegible.inside
    match label with
    | none =>
      refine ⟨t, by simp [Item.shapesAll, ht], ?_⟩
      intro hkind
      rw [hkind] at hbegins
      cases hbegins
    | some (.value n) =>
      exact ⟨.keyword .caseLabel, by simp [Item.shapesAll, CaseLabel.shapes],
        by simp [Shape.keyword]⟩
    | some .default =>
      exact ⟨.keyword .defaultLabel, by simp [Item.shapesAll, CaseLabel.shapes],
        by simp [Shape.keyword]⟩

/-- There are no more items than tokens of items. -/
theorem Item.length_le_length_shapesAll {items : List Item}
    (h : ∀ item ∈ items, item.statement.Legible) :
    items.length ≤ (Item.shapesAll items).length := by
  induction items with
  | nil => simp
  | cons item items ih =>
    obtain ⟨label, s⟩ := item
    have hs : s.Legible := h (.mk label s) (by simp)
    have hpos := hs.length_shapes_pos
    have hrest := ih fun item h' => h item (by simp [h'])
    simp only [Item.shapesAll_cons, List.length_append, List.length_cons]
    omega

/-- A statement of a block ends before the tokens behind it. -/
theorem Stmt.endsBefore_of_head? {s : Stmt} {rest : List Shape} {t : Shape}
    (ht : rest.head? = some t) (hkind : t.kind ≠ .keyword .elseBranch) :
    s.EndsBefore (s.terminatorShapes ++ rest) := by
  unfold Stmt.terminatorShapes
  split
  · rename_i hrequires
    refine ⟨fun _ => rfl, fun _ => ⟨by simp [Shape.semicolon], fun _ => ?_⟩⟩
    cases rest with
    | nil => cases ht
    | cons u rest => simp_all
  · rename_i hrequires
    refine ⟨fun h => absurd h hrequires, fun _ => ⟨by simp [ht, hkind], fun h => absurd h hrequires⟩⟩

namespace Parser

variable {g : Grammar} {n : Nat} {rest more : List Shape} {t : Shape}

/-! Labels. -/

theorem takes_caseLabel_none {all : List Shape} (ht : all.head? = some t)
    (hbegins : t.kind.begins = true) : Takes all all (· = none) caseLabel := by
  refine takes_nextKind t ht ?_
  split
  · simp_all [TokenKind.begins]
  · simp_all [TokenKind.begins]
  · exact takes_pure rfl

theorem takes_caseLabel {label : CaseLabel} (hlabel : label.isRead = true) (hmore : more ≠ []) :
    Takes (label.shapes ++ more) more (· = some label) caseLabel := by
  cases label with
  | default =>
    refine takes_nextKind _ rfl ?_
    refine takes_past rfl (by simp) ?_
    refine takes_expected (t := .colon) rfl hmore ?_
    exact takes_pure rfl
  | value m =>
    simp only [CaseLabel.isRead, decide_eq_true_eq] at hlabel
    have hcolon : ∀ {k : Int64}, 0 ≤ k.toInt → ∀ negative : Bool,
        (if negative then -k else k) = m →
        Takes (.number k.toInt :: .colon :: more) more (· = some (CaseLabel.value m)) (do
          let token ← expect .number "Expected integer literal in 'case' label"
          let value ← integerValue token
          let _ ← expect .colon "Expected ':' after 'case' label"
          return some (CaseLabel.value (if negative then -value else value))) := by
      intro k hk negative hm
      refine Takes.bind (takes_expect (t := .number k.toInt) rfl (by simp)) ?_
      intro token htoken
      refine Takes.bind (takes_integerValue hk htoken) ?_
      rintro _ rfl
      refine takes_expected (t := .colon) rfl hmore ?_
      exact takes_pure (by rw [hm])
    simp only [CaseLabel.shapes, List.cons_append, List.append_assoc, List.nil_append]
    refine takes_nextKind _ rfl ?_
    refine takes_past rfl (by split <;> simp) ?_
    split
    · rename_i hneg
      have hlt := m.toInt_lt
      have hminus : (-m).toInt = -m.toInt := by
        rw [Int64.toInt_neg]
        exact (Int.bmod_eq_iff (by decide)).2 ⟨by omega, by omega, by simp⟩
      refine takes_accepted (t := .minus) rfl (by simp) ?_
      rw [← hminus]
      exact hcolon (by omega) true (by simp)
    · rename_i hneg
      refine Takes.bind (takes_accept_of_ne (.number m.toInt) rfl (by simp [Shape.number])) ?_
      rintro _ rfl
      exact hcolon (by omega) false rfl

/-- The label in front of an item, if the block may have labels. -/
theorem takes_label {β : Type} {R : β → Prop} {label : Option CaseLabel} {labels : Bool} {s : Stmt}
    {f : Option CaseLabel → Parser β} (hlabel : label.all CaseLabel.isRead = true)
    (hnone : labels = false → label = none) (hs : s.Legible)
    (h : Takes (s.shapes ++ more) rest R (f label)) :
    Takes (label.elim [] CaseLabel.shapes ++ (s.shapes ++ more)) rest R
      (if labels then caseLabel >>= f else pure none >>= f) := by
  obtain ⟨t, ht, hbegins⟩ := s.head?_shapes hs.isRead hs.inside
  cases labels with
  | false =>
    rw [hnone rfl] at h ⊢
    exact h
  | true =>
    refine Takes.bind (Q := (· = label)) ?_ (by rintro _ rfl; exact h)
    cases label with
    | none => exact takes_caseLabel_none (t := t) (by simp [ht]) hbegins
    | some label =>
      refine takes_caseLabel hlabel ?_
      intro hnil
      simp [List.append_eq_nil_iff.1 hnil] at ht

section
variable (G : g.Rebuilds n)
include G

theorem takes_items {items : List Item} {labels : Bool} {limit : Nat}
    (hitems : ∀ item ∈ items, item.statement.Legible)
    (hlabels : ∀ item ∈ items, item.label.all CaseLabel.isRead = true)
    (hnone : labels = false → ∀ item ∈ items, item.label = none)
    (hn : (Item.shapesAll items).length < n) (hlimit : items.length < limit) (hmore : more ≠ []) :
    Takes (Item.shapesAll items ++ .rightBrace :: more) more
      (Item.bareAll · = Item.bareAll items) (Parser.items g labels limit) := by
  induction items generalizing limit with
  | nil =>
    obtain _ | limit := limit
    · simp at hlimit
    refine Takes.bind (takes_skipSemicolons .rightBrace rfl (by simp [Shape.rightBrace])) ?_
    intro _ _
    refine takes_nextKind .rightBrace rfl ?_
    refine takes_past rfl hmore ?_
    exact takes_pure rfl
  | cons item items ih =>
    obtain _ | limit := limit
    · simp at hlimit
    obtain ⟨label, s⟩ := item
    have hs : s.Legible := hitems (.mk label s) (by simp)
    have hrest : ∀ item ∈ items, item.statement.Legible := fun item h => hitems item (by simp [h])
    obtain ⟨t, ht, hbegins⟩ := s.head?_shapes hs.isRead hs.inside
    obtain ⟨u, hu, helse⟩ := Item.head?_shapesAll hrest more
    rw [Item.shapesAll_cons] at hn ⊢
    simp only [List.length_append] at hn
    simp only [List.append_assoc]
    have hafter : Takes (Item.shapesAll items ++ .rightBrace :: more) more
        (Item.bareAll · = Item.bareAll items) (Parser.items g labels limit) :=
      ih hrest (fun item h => hlabels item (by simp [h]))
        (fun h item h' => hnone h item (by simp [h'])) (by omega) (by simp at hlimit; omega)
    -- neither a `;` nor the end of the block comes first
    obtain ⟨v, hv, hkinds⟩ : ∃ v, (label.elim [] CaseLabel.shapes ++ (s.shapes ++
        (s.terminatorShapes ++ (Item.shapesAll items ++ .rightBrace :: more)))).head? = some v ∧
        v.kind ≠ .semicolon ∧ v.kind ≠ .rightBrace ∧ v.kind ≠ .eof := by
      match label with
      | none =>
        refine ⟨t, by simp [ht], ?_⟩
        refine ⟨?_, ?_, ?_⟩ <;> intro hkind <;> rw [hkind] at hbegins <;> cases hbegins
      | some (.value m) => exact ⟨.keyword .caseLabel, rfl, by simp [Shape.keyword]⟩
      | some .default => exact ⟨.keyword .defaultLabel, rfl, by simp [Shape.keyword]⟩
    refine Takes.bind (takes_skipSemicolons v hv hkinds.1) fun _ _ => ?_
    refine takes_nextKind v hv ?_
    split
    · exact absurd ‹_› hkinds.2.1
    · exact absurd ‹_› hkinds.2.2
    · refine takes_label (hlabels (.mk label s) (by simp))
        (fun h => hnone h (.mk label s) (by simp)) hs ?_
      refine Takes.bind (G.statement hs (by omega) (by simp)
        (Stmt.endsBefore_of_head? hu helse)) fun s' hs' => ?_
      have hrequires : s'.requiresSemicolon = s.requiresSemicolon := by
        rw [← s'.requiresSemicolon_bare, hs', s.requiresSemicolon_bare]
      rw [hrequires, Stmt.terminatorShapes]
      split
      · refine takes_nextKind .semicolon rfl ?_
        refine takes_past rfl (by simp) ?_
        refine Takes.bind hafter fun items' hitems' => ?_
        exact takes_pure (by simp [Item.bareAll, hs', hitems'])
      · refine Takes.bind hafter fun items' hitems' => ?_
        exact takes_pure (by simp [Item.bareAll, hs', hitems'])

theorem takes_block {items : List Item} {labels : Bool}
    (hitems : ∀ item ∈ items, item.statement.Legible)
    (hlabels : ∀ item ∈ items, item.label.all CaseLabel.isRead = true)
    (hnone : labels = false → ∀ item ∈ items, item.label = none)
    (hn : (Item.shapesAll items).length < n) (hmore : more ≠ []) :
    Takes (.leftBrace :: (Item.shapesAll items ++ .rightBrace :: more)) more
      (Item.bareAll · = Item.bareAll items) (block g labels) := by
  refine takes_expected (t := .leftBrace) rfl (by simp) ?_
  refine takes_bounded (takes_items G hitems hlabels hnone hn ?_ hmore)
  have hlength := Item.length_le_length_shapesAll hitems
  simp only [List.length_append, List.length_cons]
  omega

/-- A function behind its name. -/
theorem takes_functionRest {name : Option String} {params : List String} {body : List Item}
    (start : Span) (hbody : ∀ item ∈ body, item.statement.Legible)
    (hlabels : ∀ item ∈ body, item.label = none) (hn : (Item.shapesAll body).length < n)
    (hmore : more ≠ []) :
    Takes (.leftParen :: (Shape.listed (params.map fun p => [.identifier p]) ++ .rightParen ::
        .leftBrace :: (Item.shapesAll body ++ .rightBrace :: more))) more
      (·.bare = .mk {} name params (Item.bareAll body)) (functionRest g name start) := by
  refine takes_expected (t := .leftParen) rfl (by simp) ?_
  refine Takes.bind (takes_paramList params (by simp)) ?_
  rintro _ rfl
  refine takes_nextKind .leftBrace rfl ?_
  refine Takes.bind (takes_block G hbody (fun item h => by simp [hlabels item h])
    (fun _ => hlabels) hn hmore) fun body' hbody' => ?_
  refine takes_spanFrom fun span => ?_
  exact takes_pure (by simp [FunctionDef.bare, hbody'])

end

end Parser

end Scripting
