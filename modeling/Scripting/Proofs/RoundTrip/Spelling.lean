import Scripting.Proofs.RoundTrip.Legible

/-!
The text of a legible tree reads as the shapes of the tree.
-/

namespace Scripting

variable {rest : List Char}

/-- A text that reads as the given shapes, in front of any text that is apart from it. -/
def Spells (text : String) (shapes : List Shape) : Prop :=
  ∀ ⦃rest more⦄, Apart rest → ReadsAs rest more → ReadsAs (text.toList ++ rest) (shapes ++ more)

theorem apart_cons {c : Char} (h : Lexeme.isWordPart c = false) : Apart (c :: rest) := by
  intro d hd
  simp only [List.head?_cons, Option.mem_def, Option.some.injEq] at hd
  exact hd ▸ h

namespace ReadsAs

variable {more : List Shape}

/-- A character that is an operator by itself, whatever follows it. -/
theorem mark {c : Char} (hc : isMark c = true) (hpair : ∀ d, Lexeme.pair? c d = none)
    (hslash : c ≠ '/') (h : ReadsAs rest more) :
    ReadsAs (c :: rest) (⟨Lexeme.single c, String.ofList [c]⟩ :: more) :=
  single hc (.inl hslash) (fun d _ => hpair d) h

theorem leftParen (h : ReadsAs rest more) : ReadsAs ('(' :: rest) (.leftParen :: more) :=
  mark (by decide) (fun _ => rfl) (by decide) h

theorem rightParen (h : ReadsAs rest more) : ReadsAs (')' :: rest) (.rightParen :: more) :=
  mark (by decide) (fun _ => rfl) (by decide) h

theorem leftBrace (h : ReadsAs rest more) : ReadsAs ('\x7b' :: rest) (.leftBrace :: more) :=
  mark (by decide) (fun _ => rfl) (by decide) h

theorem rightBrace (h : ReadsAs rest more) : ReadsAs ('\x7d' :: rest) (.rightBrace :: more) :=
  mark (by decide) (fun _ => rfl) (by decide) h

theorem leftBracket (h : ReadsAs rest more) : ReadsAs ('[' :: rest) (.leftBracket :: more) :=
  mark (by decide) (fun _ => rfl) (by decide) h

theorem rightBracket (h : ReadsAs rest more) : ReadsAs (']' :: rest) (.rightBracket :: more) :=
  mark (by decide) (fun _ => rfl) (by decide) h

theorem comma (h : ReadsAs rest more) : ReadsAs (',' :: rest) (.comma :: more) :=
  mark (by decide) (fun _ => rfl) (by decide) h

theorem dot (h : ReadsAs rest more) : ReadsAs ('.' :: rest) (.dot :: more) :=
  mark (by decide) (fun _ => rfl) (by decide) h

theorem colon (h : ReadsAs rest more) : ReadsAs (':' :: rest) (.colon :: more) :=
  mark (by decide) (fun _ => rfl) (by decide) h

theorem semicolon (h : ReadsAs rest more) : ReadsAs (';' :: rest) (.semicolon :: more) :=
  mark (by decide) (fun _ => rfl) (by decide) h

/-- An operator with blanks around it. -/
theorem binaryOp (op : BinaryOp) (h : ReadsAs rest more) :
    ReadsAs (' ' :: (op.text.toList ++ ' ' :: rest)) (op.shape :: more) := by
  refine .blank ?_
  cases op <;>
    first
    | exact pair (by decide) rfl h.blank
    | exact single (by decide) (.inr (by simp)) (by simp [Lexeme.pair?]) h.blank

theorem assignOp (op : AssignOp) (h : ReadsAs rest more) :
    ReadsAs (' ' :: (op.text.toList ++ ' ' :: rest)) (op.shape :: more) := by
  refine .blank ?_
  cases op <;>
    first
    | exact pair (by decide) rfl h.blank
    | exact single (by decide) (.inr (by simp)) (by simp [Lexeme.pair?]) h.blank

theorem postfixOp (op : UnaryOp) (hop : op.isPostfix = true) (h : ReadsAs rest more) :
    ReadsAs (op.text.toList ++ rest) (op.shape :: more) := by
  cases op <;> first | exact pair (by decide) rfl h | cases hop

end ReadsAs

/-- A text that does not go on with the second character of an operator that starts an operand. -/
def Plain (text : List Char) : Prop :=
  ∀ c ∈ text.head?, c ≠ '+' ∧ c ≠ '-' ∧ c ≠ '='

theorem Plain.append {text rest : List Char} (h : Plain text) (hrest : Plain rest) :
    Plain (text ++ rest) := by
  intro c hc
  cases text with
  | nil => exact hrest c hc
  | cons d text => exact h c hc

theorem Plain.pair?_eq_none (h : Plain rest) {c : Char}
    (hc : c = '!' ∨ c = '~' ∨ c = '-' ∨ c = '+') : ∀ d ∈ rest.head?, Lexeme.pair? c d = none := by
  intro d hd
  obtain ⟨hplus, hminus, hassign⟩ := h d hd
  unfold Lexeme.pair?
  split <;> simp_all

theorem ReadsAs.prefixOp (op : UnaryOp) {more : List Shape} (hop : op.isPostfix = false)
    (hplain : Plain rest) (h : ReadsAs rest more) :
    ReadsAs (op.text.toList ++ rest) (op.shape :: more) := by
  have hsingle : ∀ {c : Char}, c = '!' ∨ c = '~' ∨ c = '-' ∨ c = '+' →
      ReadsAs (c :: rest) (⟨Lexeme.single c, String.ofList [c]⟩ :: more) := by
    intro c hc
    refine single ?_ (.inl ?_) (hplain.pair?_eq_none hc) h
    all_goals obtain rfl | rfl | rfl | rfl := hc <;> decide
  cases op with
  | not => exact hsingle (.inl rfl)
  | bitwiseNot => exact hsingle (.inr (.inl rfl))
  | minus => exact hsingle (.inr (.inr (.inl rfl)))
  | plus => exact hsingle (.inr (.inr (.inr rfl)))
  | preIncrement => exact pair (by decide) rfl h
  | preDecrement => exact pair (by decide) rfl h
  | postIncrement => cases hop
  | postDecrement => cases hop

theorem plain_toString {n : Nat} : Plain (toString (n : Int)).toList := by
  intro c hc
  have htext : toString (n : Int) = String.ofList (Nat.toDigits 10 n) :=
    Nat.toString_eq_ofList_toDigits
  rw [htext, String.toList_ofList] at hc
  have hdigit := Nat.isDigit_of_mem_toDigits (by omega) (by omega) (List.mem_of_mem_head? hc)
  refine ⟨?_, ?_, ?_⟩ <;> rintro rfl <;> exact absurd hdigit (by decide)

theorem plain_of_isWord {text : List Char} (h : Lexeme.isWord text = true) : Plain text := by
  intro c hc
  cases text with
  | nil => cases hc
  | cons d text =>
    simp only [List.head?_cons, Option.mem_def, Option.some.injEq] at hc
    subst hc
    simp only [Lexeme.isWord, Bool.and_eq_true] at h
    refine ⟨?_, ?_, ?_⟩ <;> rintro rfl <;> exact absurd h.1 (by decide)

theorem Special.text_eq (value : Special) : value.text = value.keyword.text := by
  cases value <;> rfl

theorem DeclarationKind.text_eq (kind : DeclarationKind) : kind.text = kind.keyword.text := by
  cases kind <;> rfl

theorem Expr.plain_text : (e : Expr) → e.Legible → Plain e.text.toList
  | .integer _ value, h => by
    simp only [Legible, every, isLegible, isRead, Bool.and_eq_true, decide_eq_true_eq] at h
    obtain ⟨m, hm⟩ : ∃ m : Nat, value.toInt = m := ⟨_, (Int.toNat_of_nonneg h.1.1).symm⟩
    rw [Expr.text, hm]
    exact plain_toString
  | .identifier _ name, h => by
    simp only [Legible, every, isLegible, isRead, isName, Bool.and_eq_true] at h
    exact plain_of_isWord h.1.1.1
  | .member _ object name, h => by
    simp only [Legible, every, Bool.and_eq_true] at h
    simp only [Expr.text, String.toList_append, List.append_assoc]
    exact (object.plain_text h.2).append (by simp [Plain])
  | .call _ callee args, h => by
    simp only [Legible, every, Bool.and_eq_true] at h
    simp only [Expr.text, String.toList_append, List.append_assoc]
    exact (callee.plain_text h.1.2).append (by simp [Plain])
  | .subscript _ object index, h => by
    simp only [Legible, every, Bool.and_eq_true] at h
    simp only [Expr.text, String.toList_append, List.append_assoc]
    exact (object.plain_text h.1.2).append (by simp [Plain])
  | .special _ value, _ => by
    rw [Expr.text, Special.text_eq]
    exact plain_of_isWord (Keyword.isWord_text _)
  | .unary _ op operand, _ => by
    rw [Expr.text]
    split <;> simp [Plain]
  | .string .., _ | .construct .., _ | .binary .., _ | .assign .., _ | .error .., _ => by
    simp [Expr.text, Plain]
  | .function _ (.mk ..), _ => by simp [Expr.text, FunctionDef.text, Plain]

/-! Parts of statements and functions. -/

theorem Spells.name {name : String} (h : isName name = true) : Spells name [.identifier name] :=
  fun _ _ hrest hmore => .identifier h hrest hmore

theorem spells_params {params : List String} (h : params.all isName = true) :
    Spells (", ".intercalate params) (Shape.listed (params.map fun p => [.identifier p])) := by
  induction params with
  | nil => exact fun _ _ _ hmore => hmore
  | cons first rest ih =>
    simp only [List.all_cons, Bool.and_eq_true] at h
    cases rest with
    | nil =>
      rw [String.intercalate_singleton]
      exact .name h.1
    | cons second rest =>
      intro after more hrest hmore
      simp only [String.intercalate_cons_cons, String.toList_append, String.reduceToList,
        List.append_assoc, List.cons_append, List.nil_append, List.map_cons, Shape.listed]
      refine Spells.name h.1 (apart_cons rfl) (.comma (.blank ?_))
      exact ih h.2 hrest hmore

theorem spells_terminator (s : Stmt) {more : List Shape} (h : ReadsAs rest more) :
    ReadsAs (s.terminator.toList ++ rest) (s.terminatorShapes ++ more) := by
  unfold Stmt.terminator Stmt.terminatorShapes
  split
  · exact .semicolon h
  · exact h

theorem apart_terminator (s : Stmt) (h : Apart rest) : Apart (s.terminator.toList ++ rest) := by
  unfold Stmt.terminator
  split
  · exact apart_cons rfl
  · exact h

theorem spells_label {label : CaseLabel} (h : label.isRead = true) :
    Spells label.text label.shapes := by
  intro rest more hrest hmore
  cases label with
  | value n =>
    simp only [CaseLabel.text, CaseLabel.shapes, String.toList_append, String.reduceToList,
      List.append_assoc, List.cons_append, List.nil_append]
    refine .keyword .caseLabel (apart_cons rfl) (.blank ?_)
    have hcolon : ReadsAs (':' :: rest) (.colon :: more) := .colon hmore
    split
    · rename_i hneg
      obtain ⟨k, hk⟩ := Int.eq_negSucc_of_lt_zero hneg
      have htext : toString n.toInt = "-" ++ toString ((k + 1 : Nat) : Int) := by rw [hk]; rfl
      have hminus : Plain ((toString ((k + 1 : Nat) : Int)).toList ++ ':' :: rest) :=
        plain_toString.append (by simp [Plain])
      rw [htext, hk, String.toList_append, Int.neg_negSucc]
      exact .prefixOp .minus rfl hminus (.nat _ (apart_cons rfl) hcolon)
    · rename_i hneg
      obtain ⟨m, hm⟩ : ∃ m : Nat, n.toInt = m := ⟨_, (Int.toNat_of_nonneg (by omega)).symm⟩
      rw [hm]
      exact .nat m (apart_cons rfl) hcolon
  | default =>
    exact .keyword .defaultLabel (apart_cons rfl) (.colon hmore)

theorem spells_braces {items : List Item} (h : Spells (Item.listText items) (Item.shapesAll items))
    {more : List Shape} (hmore : ReadsAs rest more) :
    ReadsAs ((inBraces items (Item.listText items)).toList ++ rest)
      (.leftBrace :: (Item.shapesAll items ++ .rightBrace :: more)) := by
  unfold inBraces
  split
  · rename_i hempty
    rw [List.isEmpty_iff.1 hempty]
    exact .leftBrace (.rightBrace hmore)
  · simp only [String.toList_append, String.reduceToList, List.append_assoc, List.cons_append,
      List.nil_append]
    exact .leftBrace (h (apart_cons rfl) (.blank (.rightBrace hmore)))

theorem Stmt.text_forLoop (span : Span) (init : Option Stmt) (condition update : Option Expr)
    (body : Stmt) :
    (Stmt.forLoop span init condition update body).text =
      "for (" ++ init.elim "" Stmt.text ++ ";" ++ condition.elim "" (" " ++ ·.text) ++ ";" ++
        update.elim "" (" " ++ ·.text) ++ ") " ++ body.text := by
  cases init <;> cases condition <;> cases update <;> simp only [Stmt.text, Option.elim]

mutual

theorem Expr.spells : (e : Expr) → e.Legible → Spells e.text e.shapes
  | .integer _ value, h => by
    simp only [Expr.Legible, Expr.every, Expr.isLegible, Expr.isRead, Bool.and_eq_true, decide_eq_true_eq] at h
    obtain ⟨m, hm⟩ : ∃ m : Nat, value.toInt = m := ⟨_, (Int.toNat_of_nonneg h.1.1).symm⟩
    rw [Expr.text, Expr.shapes, hm]
    exact fun _ _ hrest hmore => .nat m hrest hmore
  | .string _ text, h => by
    simp only [Expr.Legible, Expr.every, Expr.isLegible, Expr.lacksQuote, Bool.and_eq_true, Bool.not_eq_true'] at h
    intro rest more _ hmore
    simp only [Expr.text, Expr.shapes, String.toList_append, String.reduceToList, List.append_assoc,
      List.cons_append, List.nil_append]
    exact .string h.1.2 hmore
  | .identifier _ name, h => by
    simp only [Expr.Legible, Expr.every, Expr.isLegible, Expr.isRead, Bool.and_eq_true] at h
    exact Spells.name h.1.1
  | .special _ value, _ => by
    rw [Expr.text, Expr.shapes, Special.text_eq]
    exact fun _ _ hrest hmore => .keyword _ hrest hmore
  | .member _ object name, h => by
    simp only [Expr.Legible, Expr.every, Expr.isLegible, Expr.isRead, Bool.and_eq_true] at h
    intro rest more hrest hmore
    simp only [Expr.text, Expr.shapes, String.toList_append, String.reduceToList, List.append_assoc,
      List.cons_append, List.nil_append]
    exact object.spells h.2 (apart_cons rfl) (.dot (.word h.1.1.1 hrest hmore))
  | .call _ callee args, h => by
    simp only [Expr.Legible, Expr.every, Bool.and_eq_true] at h
    intro rest more _ hmore
    simp only [Expr.text, Expr.shapes, String.toList_append, String.reduceToList, List.append_assoc,
      List.cons_append, List.nil_append]
    refine callee.spells h.1.2 (apart_cons rfl) (.leftParen ?_)
    exact Expr.spellsAll args h.2 (apart_cons rfl) (.rightParen hmore)
  | .subscript _ object index, h => by
    simp only [Expr.Legible, Expr.every, Bool.and_eq_true] at h
    intro rest more _ hmore
    simp only [Expr.text, Expr.shapes, String.toList_append, String.reduceToList, List.append_assoc,
      List.cons_append, List.nil_append]
    refine object.spells h.1.2 (apart_cons rfl) (.leftBracket ?_)
    exact index.spells h.2 (apart_cons rfl) (.rightBracket hmore)
  | .construct _ callee args, h => by
    simp only [Expr.Legible, Expr.every, Bool.and_eq_true] at h
    intro rest more _ hmore
    simp only [Expr.text, Expr.shapes, String.toList_append, String.reduceToList, List.append_assoc,
      List.cons_append, List.nil_append]
    refine .keyword .newObject (apart_cons rfl) (.blank ?_)
    refine callee.spells h.1.2 (apart_cons rfl) (.leftParen ?_)
    exact Expr.spellsAll args h.2 (apart_cons rfl) (.rightParen hmore)
  | .unary _ op operand, h => by
    simp only [Expr.Legible, Expr.every, Bool.and_eq_true] at h
    intro rest more _ hmore
    rw [Expr.text, Expr.shapes]
    split
    · rename_i hop
      simp only [String.toList_append, String.reduceToList, List.append_assoc, List.cons_append,
        List.nil_append]
      refine .leftParen (operand.spells h.2 ?_ (.postfixOp op hop (.rightParen hmore)))
      cases op <;> exact apart_cons rfl
    · rename_i hop
      simp only [String.toList_append, String.reduceToList, List.append_assoc, List.cons_append,
        List.nil_append]
      have hplain : Plain (operand.text.toList ++ ')' :: rest) :=
        (operand.plain_text h.2).append (by simp [Plain])
      refine .leftParen (.prefixOp op (by simpa using hop) hplain ?_)
      exact operand.spells h.2 (apart_cons rfl) (.rightParen hmore)
  | .binary _ op left right, h => by
    simp only [Expr.Legible, Expr.every, Bool.and_eq_true] at h
    intro rest more _ hmore
    simp only [Expr.text, Expr.shapes, String.toList_append, String.reduceToList, List.append_assoc,
      List.cons_append, List.nil_append]
    refine .leftParen (left.spells h.1.2 (apart_cons rfl) (.binaryOp op ?_))
    exact right.spells h.2 (apart_cons rfl) (.rightParen hmore)
  | .assign _ op target value, h => by
    simp only [Expr.Legible, Expr.every, Bool.and_eq_true] at h
    intro rest more _ hmore
    simp only [Expr.text, Expr.shapes, String.toList_append, String.reduceToList, List.append_assoc,
      List.cons_append, List.nil_append]
    refine .leftParen (target.spells h.1.2 (apart_cons rfl) (.assignOp op ?_))
    exact value.spells h.2 (apart_cons rfl) (.rightParen hmore)
  | .function _ definition, h => by
    simp only [Expr.Legible, Expr.every, Expr.isLegible, Expr.isRead, Bool.and_eq_true] at h
    exact definition.spells h.1.1.1 h.2
  | .error .., h => by simp [Expr.Legible, Expr.every, Expr.isLegible, Expr.isRead] at h

theorem Expr.spellsAll : (es : List Expr) →
    Expr.everyAll Expr.isLegible Stmt.isLegible es = true →
    Spells (", ".intercalate (Expr.texts es)) (Shape.listed (Expr.shapesAll es))
  | [], _ => fun _ _ _ hmore => hmore
  | [e], h => by
    simp only [Expr.everyAll, Bool.and_eq_true] at h
    simp only [Expr.texts, Expr.shapesAll, String.intercalate_singleton, Shape.listed]
    exact e.spells h.1
  | e :: second :: rest, h => by
    rw [Expr.everyAll, Bool.and_eq_true] at h
    intro after more hafter hmore
    have ih := Expr.spellsAll (second :: rest) h.2 hafter hmore
    simp only [Expr.texts, Expr.shapesAll, String.intercalate_cons_cons, Shape.listed,
      String.toList_append, String.reduceToList, List.append_assoc, List.cons_append,
      List.nil_append] at ih ⊢
    exact e.spells h.1 (apart_cons rfl) (.comma (.blank ih))

theorem Expr.spellsOption : (e : Option Expr) →
    e.all (·.every Expr.isLegible Stmt.isLegible) = true →
    Spells (e.elim "" (" " ++ ·.text)) (e.elim [] Expr.shapes)
  | none, _ => fun _ _ _ hmore => hmore
  | some e, h => by
    intro rest more hrest hmore
    simp only [Option.elim, String.toList_append, String.reduceToList, List.cons_append,
      List.nil_append]
    exact .blank (e.spells h hrest hmore)

theorem FunctionDef.spells : (definition : FunctionDef) → definition.isRead = true →
    definition.every Expr.isLegible Stmt.isLegible = true →
    Spells definition.text definition.shapes
  | .mk _ name params body, hread, h => by
    simp only [FunctionDef.isRead, FunctionDef.name, FunctionDef.params, FunctionDef.body,
      Bool.and_eq_true, List.all_eq_true] at hread
    obtain ⟨⟨hname, hparams⟩, hlabels⟩ := hread
    rw [FunctionDef.every] at h
    intro rest more _ hmore
    have hbody := Item.spellsAll body
      (fun item hitem => by simp [Option.isNone_iff_eq_none.1 (hlabels item hitem)]) h
    have hparams' := spells_params (List.all_eq_true.2 hparams)
    have hrest := hparams' (apart_cons rfl) (.rightParen (.blank (spells_braces hbody hmore)))
    cases name with
    | none =>
      simp only [FunctionDef.text, FunctionDef.shapes, Shape.function, String.toList_append,
        String.reduceToList, List.append_assoc, List.cons_append, List.nil_append,
        Option.toList_none, List.map_nil]
      exact .keyword .function (apart_cons rfl) (.leftParen hrest)
    | some n =>
      simp only [FunctionDef.text, FunctionDef.shapes, Shape.function, String.toList_append,
        String.reduceToList, List.append_assoc, List.cons_append, List.nil_append,
        Option.toList_some, List.map_cons, List.map_nil]
      refine .keyword .function (apart_cons rfl) (.blank ?_)
      exact .identifier hname (apart_cons rfl) (.leftParen hrest)

theorem Item.spellsAll : (items : List Item) →
    (∀ item ∈ items, item.label.all CaseLabel.isRead = true) →
    Item.everyAll Expr.isLegible Stmt.isLegible items = true →
    Spells (Item.listText items) (Item.shapesAll items)
  | [], _, _ => fun _ _ _ hmore => hmore
  | .mk label statement :: others, hlabels, h => by
    simp only [Item.everyAll, Stmt.isLegible, Bool.and_eq_true] at h
    obtain ⟨⟨⟨hread, -⟩, hinside⟩, hothers⟩ := h
    intro rest more hrest hmore
    have hafter := Item.spellsAll others (fun item hitem => hlabels item (by simp [hitem])) hothers
      hrest hmore
    have hapart : Apart ((Item.listText others).toList ++ rest) := by
      cases others with
      | nil => exact hrest
      | cons item others =>
        obtain ⟨label, statement⟩ := item
        simp only [Item.listText, String.toList_append, String.reduceToList, List.append_assoc,
          List.cons_append, List.nil_append]
        exact apart_cons rfl
    have hstatement := statement.spells hread hinside (apart_terminator statement hapart)
      (spells_terminator statement hafter)
    cases label with
    | none =>
      simp only [Item.listText, Item.shapesAll, String.toList_append, String.reduceToList,
        List.append_assoc, List.cons_append, List.nil_append]
      exact .blank hstatement
    | some label =>
      have hlabel : label.isRead = true := hlabels (.mk (some label) statement) (by simp)
      simp only [Item.listText, Item.shapesAll, String.toList_append, String.reduceToList,
        List.append_assoc, List.cons_append, List.nil_append]
      exact .blank (spells_label hlabel (apart_cons rfl) (.blank hstatement))

theorem Stmt.spellsOption : (s : Option Stmt) → s.all Stmt.isClause = true →
    s.all (·.inside Expr.isLegible Stmt.isLegible) = true →
    Spells (s.elim "" Stmt.text) (s.elim [] Stmt.shapes)
  | none, _, _ => fun _ _ _ hmore => hmore
  | some s, hread, h => s.spells (Stmt.isRead_of_isClause hread) h

theorem Stmt.spells : (s : Stmt) → s.isRead = true → s.LegibleInside → Spells s.text s.shapes
  | .expression _ expr, _, h => expr.spells h
  | .block _ items, hread, h => by
    rw [Stmt.isRead, List.all_eq_true] at hread
    rw [Stmt.LegibleInside, Stmt.inside] at h
    intro rest more _ hmore
    have hitems := Item.spellsAll items
      (fun item hitem => by simp [Option.isNone_iff_eq_none.1 (hread item hitem)]) h
    simp only [Stmt.text, Stmt.shapes, List.append_assoc, List.cons_append, List.nil_append]
    exact spells_braces hitems hmore
  | .ifElse _ condition thenBranch none, _, h => by
    simp only [Stmt.LegibleInside, Stmt.inside, Stmt.isLegible, Bool.and_eq_true] at h
    obtain ⟨⟨hcondition, ⟨hread, -⟩, hthen⟩, -⟩ := h
    intro rest more hrest hmore
    simp only [Stmt.text, Stmt.shapes, String.toList_append, String.reduceToList, List.append_assoc,
      List.cons_append, List.nil_append]
    refine .keyword .ifElse (apart_cons rfl) (.blank (.leftParen ?_))
    refine condition.spells hcondition (apart_cons rfl) (.rightParen (.blank ?_))
    exact thenBranch.spells hread hthen hrest hmore
  | .ifElse _ condition thenBranch (some branch), _, h => by
    simp only [Stmt.LegibleInside, Stmt.inside, Stmt.isLegible, Bool.and_eq_true] at h
    obtain ⟨⟨hcondition, ⟨hread, -⟩, hthen⟩, ⟨hread', -⟩, hbranch⟩ := h
    intro rest more hrest hmore
    simp only [Stmt.text, Stmt.shapes, String.toList_append, String.reduceToList, List.append_assoc,
      List.cons_append, List.nil_append]
    refine .keyword .ifElse (apart_cons rfl) (.blank (.leftParen ?_))
    refine condition.spells hcondition (apart_cons rfl) (.rightParen (.blank ?_))
    refine thenBranch.spells hread hthen (apart_terminator _ (apart_cons rfl)) ?_
    refine spells_terminator _ (.blank (.keyword .elseBranch (apart_cons rfl) (.blank ?_)))
    exact branch.spells hread' hbranch hrest hmore
  | .whileLoop _ condition body, _, h => by
    simp only [Stmt.LegibleInside, Stmt.inside, Stmt.isLegible, Bool.and_eq_true] at h
    obtain ⟨hcondition, ⟨hread, -⟩, hbody⟩ := h
    intro rest more hrest hmore
    simp only [Stmt.text, Stmt.shapes, String.toList_append, String.reduceToList, List.append_assoc,
      List.cons_append, List.nil_append]
    refine .keyword .whileLoop (apart_cons rfl) (.blank (.leftParen ?_))
    refine condition.spells hcondition (apart_cons rfl) (.rightParen (.blank ?_))
    exact body.spells hread hbody hrest hmore
  | .forLoop _ init condition update body, hread, h => by
    simp only [Stmt.LegibleInside, Stmt.inside_forLoop, Stmt.isLegible, Bool.and_eq_true] at h
    obtain ⟨⟨⟨hinit, hcondition⟩, hupdate⟩, ⟨hbody, -⟩, hinside⟩ := h
    intro rest more hrest hmore
    simp only [Stmt.text_forLoop, Stmt.shapes_forLoop, String.toList_append, String.reduceToList,
      List.append_assoc, List.cons_append, List.nil_append]
    refine .keyword .forLoop (apart_cons rfl) (.blank (.leftParen ?_))
    refine Stmt.spellsOption init hread hinit (apart_cons rfl) (.semicolon ?_)
    refine Expr.spellsOption condition hcondition (apart_cons rfl) (.semicolon ?_)
    refine Expr.spellsOption update hupdate (apart_cons rfl) (.rightParen (.blank ?_))
    exact body.spells hbody hinside hrest hmore
  | .switch _ subject items, hread, h => by
    simp only [Stmt.isRead, List.all_eq_true] at hread
    simp only [Stmt.LegibleInside, Stmt.inside, Bool.and_eq_true] at h
    intro rest more _ hmore
    simp only [Stmt.text, Stmt.shapes, String.toList_append, String.reduceToList, List.append_assoc,
      List.cons_append, List.nil_append]
    refine .keyword .switch (apart_cons rfl) (.blank (.leftParen ?_))
    refine subject.spells h.1 (apart_cons rfl) (.rightParen (.blank ?_))
    exact spells_braces (Item.spellsAll items hread h.2) hmore
  | .tryCatch _ body binding handler, hread, h => by
    simp only [Stmt.LegibleInside, Stmt.inside, Stmt.isLegible, Bool.and_eq_true] at h
    obtain ⟨⟨⟨hread', -⟩, hbody⟩, ⟨hread'', -⟩, hhandler⟩ := h
    intro rest more hrest hmore
    simp only [Stmt.text, Stmt.shapes, String.toList_append, String.reduceToList, List.append_assoc,
      List.cons_append, List.nil_append]
    refine .keyword .tryBlock (apart_cons rfl) (.blank ?_)
    refine body.spells hread' hbody (apart_terminator _ (apart_cons rfl)) ?_
    refine spells_terminator _ (.blank (.keyword .catchBlock (apart_cons rfl) ?_))
    refine .blank (.leftParen (.identifier hread (apart_cons rfl) (.rightParen (.blank ?_))))
    exact handler.spells hread'' hhandler hrest hmore
  | .throwValue _ value, _, h => by
    intro rest more hrest hmore
    simp only [Stmt.text, Stmt.shapes, String.toList_append, String.reduceToList, List.cons_append,
      List.nil_append]
    exact .keyword .throwValue (apart_cons rfl) (.blank (value.spells h hrest hmore))
  | .returnValue _ (some value), _, h => by
    intro rest more hrest hmore
    simp only [Stmt.text, Stmt.shapes, String.toList_append, String.reduceToList, List.cons_append,
      List.nil_append]
    exact .keyword .returnValue (apart_cons rfl) (.blank (value.spells h hrest hmore))
  | .returnValue _ none, _, _ => fun _ _ hrest hmore => .keyword .returnValue hrest hmore
  | .breakLoop _, _, _ => fun _ _ hrest hmore => .keyword .breakLoop hrest hmore
  | .continueLoop _, _, _ => fun _ _ hrest hmore => .keyword .continueLoop hrest hmore
  | .declare _ kind name none, hread, _ => by
    simp only [Stmt.isRead, Stmt.isClause, Bool.and_eq_true] at hread
    intro rest more hrest hmore
    simp only [Stmt.text, Stmt.shapes, DeclarationKind.text_eq, String.toList_append,
      String.reduceToList, List.append_assoc, List.cons_append, List.nil_append]
    exact .keyword _ (apart_cons rfl) (.blank (.identifier hread.1 hrest hmore))
  | .declare _ kind name (some init), hread, h => by
    simp only [Stmt.isRead, Stmt.isClause, Bool.and_eq_true] at hread
    intro rest more hrest hmore
    simp only [Stmt.text, Stmt.shapes, DeclarationKind.text_eq, String.toList_append,
      String.reduceToList, List.append_assoc, List.cons_append, List.nil_append]
    refine .keyword _ (apart_cons rfl) (.blank (.identifier hread.1 (apart_cons rfl) ?_))
    exact .assignOp .assign (init.spells h hrest hmore)
  | .function _ definition, hread, h => by
    rw [Stmt.isRead, Bool.and_eq_true] at hread
    exact definition.spells hread.1 h
  | .error .., hread, _ => by cases hread

end

theorem Stmt.Legible.spells_closedText {s : Stmt} (h : s.Legible) :
    Spells s.closedText s.closedShapes := by
  intro rest more hrest hmore
  rw [Stmt.closedText, Stmt.closedShapes, String.toList_append, List.append_assoc,
    List.append_assoc]
  exact s.spells h.isRead h.inside (apart_terminator s hrest) (spells_terminator s hmore)

/-- The text of a program whose statements are legible reads as its shapes. -/
theorem Program.spells {program : Program} (h : ∀ s ∈ program.statements, s.Legible) :
    ReadsAs program.text.toList (program.shapes ++ [.eof]) := by
  obtain ⟨statements, errors⟩ := program
  simp only [Program.text, Program.shapes] at h ⊢
  induction statements with
  | nil => exact .nil
  | cons first rest ih =>
    have hfirst := (h first (by simp)).spells_closedText
    cases rest with
    | nil =>
      have hlast := hfirst (by simp [Apart]) ReadsAs.nil
      simpa using hlast
    | cons second rest =>
      have hrest := ih fun s hs => h s (by simp [hs])
      simp only [List.map_cons, String.intercalate_cons_cons, String.toList_append,
        String.reduceToList, List.flatMap_cons, List.append_assoc, List.cons_append,
        List.nil_append] at hfirst hrest ⊢
      have hjoined := hfirst (apart_cons rfl) (.blank hrest)
      simpa only [List.append_assoc] using hjoined

end Scripting
