import Mathlib.Data.List.TakeWhile
import Scripting.Proofs.Computation
import Scripting.Proofs.Heap

/-!
What a `switch` runs.

A label is an integer, and values of different types do not compare, so only an integer can be equal to
one and no class is asked for its comparison. Main statement: a `switch` starts at the first label that
is equal to its subject, or else at the first `default`, and executes the items from there up to the
next label or to the first that does not end normally (`switch_exact`).
-/

namespace Scripting

variable {item : Item} {items : List Item}

/-- The label of the item is the integer that the subject is. -/
def Item.Fits (subject : Value) (item : Item) : Prop :=
  ∃ n, item.label = some (.value n) ∧ subject = .int n

theorem Comparison.ofInts_eq_equal_iff {a b : Int64} : ofInts a b = .equal ↔ a = b := by
  unfold ofInts
  by_cases hlt : a < b
  · simp [hlt, Std.ne_of_lt hlt]
  · by_cases heq : a = b
    · simp [heq]
    · simp [hlt, heq]

namespace Switch

/-- `item` is the first of the items with a property, and `behind` stands behind it. -/
def First (p : Item → Prop) (items : List Item) (item : Item) (behind : List Item) : Prop :=
  ∃ before, items = before ++ item :: behind ∧ p item ∧ ∀ other ∈ before, ¬p other

/-- Where a `switch` starts, and what stands behind this item. -/
inductive StartsAt (subject : Value) (items : List Item) (item : Item) (behind : List Item) : Prop where
  | fitting (h : First (·.Fits subject) items item behind)
  | fallback (hnone : ∀ other ∈ items, ¬other.Fits subject)
      (h : First (·.label = some .default) items item behind)

/-- The switch has no item to start at. -/
def HasNoStart (subject : Value) (items : List Item) : Prop :=
  ∀ item ∈ items, ¬item.Fits subject ∧ item.label ≠ some .default

/-- The execution of an item. The value of the item before it is held meanwhile. -/
def executeItem (i : Interp) (last : Value) (item : Item) : Eval Completion :=
  Eval.holding last.nodes (i.execute item.statement)

/-- All items are executed one after the other and end normally, the last of them with the value
`final`. -/
inductive Passes (i : Interp) : Value → State → List Item → Value → State → Prop where
  | done (last : Value) (s : State) : Passes i last s [] last s
  | item {last v final : Value} {s s' t : State} {item : Item} {rest : List Item}
      (h : executeItem i last item s = .ok (.normal v) s') (hrest : Passes i v s' rest final t) :
      Passes i last s (item :: rest) final t

/-- Execution gets to an item: all items in front of it end normally, the last of them with the value
`v`. -/
def GetsTo (i : Interp) (last : Value) (items : List Item) (s : State) (item : Item) (v : Value)
    (s' : State) : Prop :=
  ∃ front rest, items = front ++ item :: rest ∧ Passes i last s front v s'

/-- How a section ends: with its last item, or with the first that does not end normally. A `break`
ends the section normally, with the value of the item before it. All else goes on to what is around the
`switch`. -/
inductive Ends (i : Interp) (last : Value) (items : List Item) (s : State) : Outcome Completion → Prop
    where
  | whole {final : Value} {t : State} (h : Passes i last s items final t) :
      Ends i last items s (.ok (.normal final) t)
  | broken {item : Item} {v : Value} {s' t : State} (hto : GetsTo i last items s item v s')
      (h : executeItem i v item s' = .ok .broken t) : Ends i last items s (.ok (.normal v) t)
  | continued {item : Item} {v : Value} {s' t : State} (hto : GetsTo i last items s item v s')
      (h : executeItem i v item s' = .ok .continued t) : Ends i last items s (.ok .continued t)
  | returned {item : Item} {v w : Value} {s' t : State} (hto : GetsTo i last items s item v s')
      (h : executeItem i v item s' = .ok (.returned w) t) :
      Ends i last items s (.ok (.returned w) t)
  | thrown {item : Item} {v : Value} {e : Exception} {s' t : State}
      (hto : GetsTo i last items s item v s') (h : executeItem i v item s' = .thrown e t) :
      Ends i last items s (.thrown e t)
  | outOfFuel {item : Item} {v : Value} {s' : State} (hto : GetsTo i last items s item v s')
      (h : executeItem i v item s' = .outOfFuel) : Ends i last items s .outOfFuel
  | needsFile {item : Item} {v : Value} {path : String} {s' : State}
      (hto : GetsTo i last items s item v s') (h : executeItem i v item s' = .needsFile path) :
      Ends i last items s (.needsFile path)

/-- What a `switch` does: it executes the item at which it starts and those behind it that have no
label, up to the next one that has. -/
inductive Does (i : Interp) (subject : Value) (items : List Item) (s : State) :
    Outcome Completion → Prop where
  | run {item : Item} {run rest : List Item} {outcome : Outcome Completion}
      (hstart : StartsAt subject items item (run ++ rest)) (hrun : ∀ other ∈ run, other.label = none)
      (hrest : ∀ other ∈ rest.head?, other.label ≠ none)
      (h : Ends i .undefined (item :: run) s outcome) : Does i subject items s outcome
  | nothing (h : HasNoStart subject items) : Does i subject items s (.ok (.normal .undefined) s)

/-! Where a `switch` starts. -/

theorem exists_first (p : Item → Prop) (items : List Item) :
    (∃ item behind, First p items item behind) ∨ ∀ item ∈ items, ¬p item := by
  induction items with
  | nil => exact .inr nofun
  | cons item rest ih =>
    by_cases hitem : p item
    · exact .inl ⟨item, rest, [], rfl, hitem, nofun⟩
    · rcases ih with ⟨first, behind, before, hrest, hfirst, hbefore⟩ | hnone
      · refine .inl ⟨first, behind, item :: before, by rw [hrest]; rfl, hfirst, ?_⟩
        exact List.forall_mem_cons.2 ⟨hitem, hbefore⟩
      · exact .inr (List.forall_mem_cons.2 ⟨hitem, hnone⟩)

theorem startsAt_or_hasNoStart (subject : Value) (items : List Item) :
    (∃ item behind, StartsAt subject items item behind) ∨ HasNoStart subject items := by
  rcases exists_first (·.Fits subject) items with ⟨item, behind, h⟩ | hnone
  · exact .inl ⟨item, behind, .fitting h⟩
  · rcases exists_first (·.label = some .default) items with ⟨item, behind, h⟩ | hdefault
    · exact .inl ⟨item, behind, .fallback hnone h⟩
    · exact .inr fun item hitem => ⟨hnone item hitem, hdefault item hitem⟩

end Switch

namespace Eval

open Switch

variable {i : Interp} {subject : Value} {s : State}

section
variable (hsubject : subject.isReference = false)
include hsubject

/-- A comparison with an integer has a result, and leaves the state as it is. -/
theorem compare_int (n : Int64) (s : State) :
    ∃ c, compare subject (.int n) s = .ok c s ∧ (c = .equal ↔ subject = .int n) := by
  unfold compare deref
  rw [look_bind, look_bind, State.deref_of_not_reference s hsubject,
    State.deref_of_not_reference s (v := .int n) rfl]
  cases subject with
  | int m => exact ⟨_, rfl, by rw [Comparison.ofInts_eq_equal_iff, Value.int.injEq]⟩
  | reference r => cases hsubject
  | _ => exact ⟨.unknown, rfl, by simp⟩

/-! Looking for the section, item by item. -/

theorem selectSection_cons_of_fits (h : item.Fits subject) (fallback : Option (List Item))
    (rest : List Item) (s : State) :
    selectSection subject fallback (item :: rest) s = .ok (some (item :: rest)) s := by
  obtain ⟨n, hlabel, hn⟩ := h
  obtain ⟨c, hcompare, hc⟩ := compare_int hsubject n s
  unfold selectSection
  rw [hlabel]
  dsimp only
  rw [bind_of_ok hcompare, if_pos (hc.2 hn)]
  rfl

/-- An item that does not fit is passed by, and a `default` is kept if it is the first one. -/
theorem selectSection_cons_of_not_fits (h : ¬item.Fits subject) (fallback : Option (List Item))
    (rest : List Item) (s : State) :
    selectSection subject fallback (item :: rest) s =
      selectSection subject
        (if item.label = some .default then fallback <|> some (item :: rest) else fallback) rest s := by
  rw [selectSection]
  cases hlabel : item.label with
  | none => rfl
  | some label =>
    cases label with
    | default => rfl
    | value n =>
      obtain ⟨c, hcompare, hc⟩ := compare_int hsubject n s
      have hunequal : c ≠ .equal := fun hequal => h ⟨n, hlabel, hc.1 hequal⟩
      dsimp only
      rw [bind_of_ok hcompare, if_neg hunequal, if_neg nofun]

theorem selectSection_of_fitting {items behind : List Item}
    (h : First (·.Fits subject) items item behind) (fallback : Option (List Item)) (s : State) :
    selectSection subject fallback items s = .ok (some (item :: behind)) s := by
  obtain ⟨before, rfl, hitem, hbefore⟩ := h
  induction before generalizing fallback with
  | nil => exact selectSection_cons_of_fits hsubject hitem fallback behind s
  | cons other before ih =>
    rw [List.forall_mem_cons] at hbefore
    rw [List.cons_append, selectSection_cons_of_not_fits hsubject hbefore.1, ih _ hbefore.2]

/-- The first `default` is kept if no label fits. -/
theorem selectSection_of_found (hnone : ∀ other ∈ items, ¬other.Fits subject) (found : List Item)
    (s : State) : selectSection subject (some found) items s = .ok (some found) s := by
  induction items with
  | nil => rfl
  | cons item rest ih =>
    rw [List.forall_mem_cons] at hnone
    rw [selectSection_cons_of_not_fits hsubject hnone.1]
    split <;> exact ih hnone.2

theorem selectSection_of_fallback {items behind : List Item}
    (hnone : ∀ other ∈ items, ¬other.Fits subject)
    (h : First (·.label = some .default) items item behind) (s : State) :
    selectSection subject none items s = .ok (some (item :: behind)) s := by
  obtain ⟨before, rfl, hitem, hbefore⟩ := h
  induction before with
  | nil =>
    rw [List.nil_append, List.forall_mem_cons] at hnone
    rw [List.nil_append, selectSection_cons_of_not_fits hsubject hnone.1, if_pos hitem]
    exact selectSection_of_found hsubject hnone.2 _ s
  | cons other before ih =>
    rw [List.cons_append, List.forall_mem_cons] at hnone
    rw [List.forall_mem_cons] at hbefore
    rw [List.cons_append, selectSection_cons_of_not_fits hsubject hnone.1, if_neg hbefore.1,
      ih hnone.2 hbefore.2]

theorem selectSection_of_startsAt {items behind : List Item}
    (h : StartsAt subject items item behind) (s : State) :
    selectSection subject none items s = .ok (some (item :: behind)) s := by
  cases h with
  | fitting h => exact selectSection_of_fitting hsubject h none s
  | fallback hnone h => exact selectSection_of_fallback hsubject hnone h s

theorem selectSection_of_hasNoStart (h : HasNoStart subject items) (s : State) :
    selectSection subject none items s = .ok none s := by
  induction items with
  | nil => rfl
  | cons item rest ih =>
    obtain ⟨⟨hfits, hlabel⟩, hrest⟩ := List.forall_mem_cons.1 h
    rw [selectSection_cons_of_not_fits hsubject hfits, if_neg hlabel, ih hrest]

end

/-! Executing a section, item by item. -/

theorem runSection_cons (last : Value) (item : Item) (rest : List Item) (s : State) :
    runSection i last (item :: rest) s =
      match executeItem i last item s with
      | .ok (.normal v) s' => runSection i v rest s'
      | .ok .broken s' => .ok (.normal last) s'
      | outcome => outcome := by
  change andThen (executeItem i last item) _ s = _
  unfold andThen
  cases executeItem i last item s with
  | ok c s' => cases c <;> rfl
  | _ => rfl

/-- Items that end normally are left behind. -/
theorem runSection_append {last v : Value} {s' : State} {front : List Item}
    (h : Passes i last s front v s') (rest : List Item) :
    runSection i last (front ++ rest) s = runSection i v rest s' := by
  induction h with
  | done => rfl
  | item h _ ih =>
    rw [List.cons_append, runSection_cons, h]
    exact ih

/-- What the section does with an item that execution gets to. -/
theorem runSection_of_getsTo {last v : Value} {s' : State} (h : GetsTo i last items s item v s') :
    ∃ rest, runSection i last items s =
      match executeItem i v item s' with
      | .ok (.normal v) s' => runSection i v rest s'
      | .ok .broken s' => .ok (.normal v) s'
      | outcome => outcome := by
  obtain ⟨front, rest, rfl, hpasses⟩ := h
  exact ⟨rest, by rw [runSection_append hpasses, runSection_cons]⟩

theorem runSection_of_ends {last : Value} {outcome : Outcome Completion}
    (h : Ends i last items s outcome) : runSection i last items s = outcome := by
  cases h with
  | whole h =>
    have hrun := runSection_append h []
    rw [List.append_nil] at hrun
    exact hrun
  | broken hto h | continued hto h | returned hto h | thrown hto h | outOfFuel hto h
  | needsFile hto h =>
    obtain ⟨rest, hrun⟩ := runSection_of_getsTo hto
    rw [hrun, h]

end Eval

namespace Switch

variable {i : Interp} {last v : Value} {s s' : State} {rest : List Item}

theorem getsTo_head (i : Interp) (last : Value) (item : Item) (rest : List Item) (s : State) :
    GetsTo i last (item :: rest) s item last s :=
  ⟨[], rest, rfl, .done last s⟩

theorem GetsTo.cons {other : Item} {w : Value} {t : State} (hto : GetsTo i v rest s' other w t)
    (h : executeItem i last item s = .ok (.normal v) s') :
    GetsTo i last (item :: rest) s other w t := by
  obtain ⟨front, more, rfl, hpasses⟩ := hto
  exact ⟨item :: front, more, rfl, .item h hpasses⟩

theorem Ends.cons {outcome : Outcome Completion} (hends : Ends i v rest s' outcome)
    (h : executeItem i last item s = .ok (.normal v) s') :
    Ends i last (item :: rest) s outcome := by
  cases hends with
  | whole hpasses => exact .whole (.item h hpasses)
  | broken hto hitem => exact .broken (hto.cons h) hitem
  | continued hto hitem => exact .continued (hto.cons h) hitem
  | returned hto hitem => exact .returned (hto.cons h) hitem
  | thrown hto hitem => exact .thrown (hto.cons h) hitem
  | outOfFuel hto hitem => exact .outOfFuel (hto.cons h) hitem
  | needsFile hto hitem => exact .needsFile (hto.cons h) hitem

/-- A section always ends in one of these ways. -/
theorem exists_ends (i : Interp) (last : Value) (items : List Item) (s : State) :
    ∃ outcome, Ends i last items s outcome := by
  induction items generalizing last s with
  | nil => exact ⟨_, .whole (.done last s)⟩
  | cons item rest ih =>
    have hto := getsTo_head i last item rest s
    cases h : executeItem i last item s with
    | ok c s' =>
      cases c with
      | normal v =>
        obtain ⟨outcome, hends⟩ := ih v s'
        exact ⟨outcome, hends.cons h⟩
      | broken => exact ⟨_, .broken hto h⟩
      | continued => exact ⟨_, .continued hto h⟩
      | returned w => exact ⟨_, .returned hto h⟩
    | thrown e s' => exact ⟨_, .thrown hto h⟩
    | outOfFuel => exact ⟨_, .outOfFuel hto h⟩
    | needsFile path => exact ⟨_, .needsFile hto h⟩

end Switch

namespace Eval

open Switch

variable {i : Interp} {subject : Value} {s : State}

theorem runSwitch_of_startsAt (hsubject : subject.isReference = false) {items behind : List Item}
    (h : StartsAt subject items item behind) :
    runSwitch i subject items s =
      runSection i .undefined (item :: behind.takeWhile (·.label.isNone)) s := by
  unfold runSwitch
  rw [bind_of_ok (selectSection_of_startsAt hsubject h s)]

/-- The run of items without a label that stands at the front. -/
theorem takeWhile_label {run rest : List Item} (hrun : ∀ other ∈ run, other.label = none)
    (hrest : ∀ other ∈ rest.head?, other.label ≠ none) :
    (run ++ rest).takeWhile (·.label.isNone) = run := by
  rw [List.takeWhile_append_of_pos fun other h => by rw [hrun other h]; rfl]
  cases rest with
  | nil => simp
  | cons next rest =>
    have hnext : next.label.isNone = false :=
      Option.isNone_eq_false_iff.2 (Option.isSome_iff_ne_none.2 (hrest next rfl))
    simp [hnext]

theorem runSwitch_of_does (hsubject : subject.isReference = false) {outcome : Outcome Completion}
    (h : Does i subject items s outcome) : runSwitch i subject items s = outcome := by
  cases h with
  | run hstart hrun hrest h =>
    rw [runSwitch_of_startsAt hsubject hstart, takeWhile_label hrun hrest]
    exact runSection_of_ends h
  | nothing h =>
    unfold runSwitch
    rw [bind_of_ok (selectSection_of_hasNoStart hsubject h s)]
    rfl

end Eval

theorem Switch.exists_does (i : Interp) (subject : Value) (items : List Item) (s : State) :
    ∃ outcome, Does i subject items s outcome := by
  rcases startsAt_or_hasNoStart subject items with ⟨item, behind, hstart⟩ | hnone
  · obtain ⟨outcome, hends⟩ :=
      exists_ends i .undefined (item :: behind.takeWhile (·.label.isNone)) s
    rw [← List.takeWhile_append_dropWhile (p := (·.label.isNone)) (l := behind)] at hstart
    refine ⟨outcome, .run hstart ?_ ?_ hends⟩
    · intro other hother
      simpa using List.mem_takeWhile_imp hother
    · intro other hother
      have hlabelled := List.head?_dropWhile_not (·.label.isNone) behind
      rw [hother] at hlabelled
      exact Option.isSome_iff_ne_none.1 (Option.isNone_eq_false_iff.1 hlabelled)
  · exact ⟨_, .nothing hnone⟩

open Eval Switch in
/-- What a `switch` does with a subject that is not a reference, in every state. The section is found
without a change of the state and without an exception, whatever the subject is: it starts at the first
label that is equal to the subject, or else at the first `default`. From there the items up to the next
label are executed, until one does not end normally. A `switch` statement does this with the value
behind its subject, in a scope of its own if an item binds a name. -/
theorem switch_exact {subject : Value} (hsubject : subject.isReference = false) (items : List Item)
    (s : State) :
    (∃ selected, selectSection subject none items s = .ok selected s ∧
      (∀ taken, selected = some taken ↔
        ∃ item behind, taken = item :: behind ∧ StartsAt subject items item behind) ∧
      (selected = none ↔ HasNoStart subject items)) ∧
    (∀ i outcome, runSwitch i subject items s = outcome ↔ Does i subject items s outcome) ∧
    ∀ n span e s₀ v, evaluate n e s₀ = .ok v s → s.deref v = subject →
      execute (n + 1) (.switch span e items) s₀ =
        holding subject.nodes (inScope (needsScope items) (runSwitch (interp n) subject items)) s := by
  refine ⟨?_, ?_, ?_⟩
  · rcases startsAt_or_hasNoStart subject items with ⟨item, behind, hstart⟩ | hnone
    · refine ⟨some (item :: behind), selectSection_of_startsAt hsubject hstart s, ?_, ?_⟩
      · intro taken
        constructor
        · rintro ⟨⟩
          exact ⟨item, behind, rfl, hstart⟩
        · rintro ⟨item', behind', rfl, hstart'⟩
          have hselect := selectSection_of_startsAt hsubject hstart s
          rw [selectSection_of_startsAt hsubject hstart' s] at hselect
          cases hselect
          rfl
      · constructor
        · nofun
        · intro hnone
          have hselect := selectSection_of_startsAt hsubject hstart s
          rw [selectSection_of_hasNoStart hsubject hnone s] at hselect
          cases hselect
    · refine ⟨none, selectSection_of_hasNoStart hsubject hnone s, ?_, fun _ => hnone, fun _ => rfl⟩
      intro taken
      constructor
      · nofun
      · rintro ⟨item, behind, rfl, hstart⟩
        have hselect := selectSection_of_hasNoStart hsubject hnone s
        rw [selectSection_of_startsAt hsubject hstart s] at hselect
        cases hselect
  · intro i outcome
    constructor
    · rintro rfl
      obtain ⟨outcome, hdoes⟩ := exists_does i subject items s
      rwa [runSwitch_of_does hsubject hdoes]
    · exact runSwitch_of_does hsubject
  · intro n span e s₀ v heval hv
    change (evaluate n e >>= fun v => deref v >>= fun v => holding v.nodes
      (inScope (needsScope items) (runSwitch (interp n) v items))) s₀ = _
    rw [bind_of_ok heval, deref, look_bind, hv]

/-- The items of `default: 1; case 2: 2; break; 3; case 2: 4`. -/
def Switch.fallbackFirst : List Item :=
  [⟨some .default, .expression {} (.integer {} 1)⟩, ⟨some (.value 2), .expression {} (.integer {} 2)⟩,
    ⟨none, .breakLoop {}⟩, ⟨none, .expression {} (.integer {} 3)⟩,
    ⟨some (.value 2), .expression {} (.integer {} 4)⟩]

open Eval Switch in
/-- The first label that fits is taken, although it stands behind a `default`; the `break` ends the
`switch` with the value before it. No label fits an object, so the `default` is taken. -/
theorem switch_exact_fallbackFirst :
    let s := State.initial default
    Does (interp 9) (.int 2) fallbackFirst s (.ok (.normal (.int 2)) s) ∧
    Does (interp 9) (.object s.global) fallbackFirst s (.ok (.normal (.int 1)) s) ∧
    execute 10 (.switch {} (.integer {} 2) fallbackFirst) s = .ok (.normal (.int 2)) s := by
  intro s
  have hint := switch_exact (show (Value.int 2).isReference = false from rfl) fallbackFirst s
  have hobject :=
    switch_exact (show (Value.object s.global).isReference = false from rfl) fallbackFirst s
  refine ⟨(hint.2.1 (interp 9) _).1 rfl, (hobject.2.1 (interp 9) _).1 rfl, ?_⟩
  rw [hint.2.2 9 {} (.integer {} 2) s (.int 2) rfl rfl]
  rfl

end Scripting
