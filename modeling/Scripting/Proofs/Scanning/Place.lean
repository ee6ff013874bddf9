import Scripting.Source.Span

/-!
Places in a text: what `Location.after` counts, and the pieces of a text between byte offsets.

A piece is cut out by its byte offsets (`slice`), which is how a span stands for a run of source text.
-/

namespace Scripting

theorem byteLength_append (first second : List Char) :
    byteLength (first ++ second) = byteLength first + byteLength second := by
  induction first with
  | nil => simp [byteLength]
  | cons c first ih => simp [byteLength, ih, Nat.add_assoc]

theorem byteLength_pos {text : List Char} (h : text ≠ []) : 0 < byteLength text := by
  cases text with
  | nil => exact absurd rfl h
  | cons c rest =>
    have hsize := c.utf8Size_pos
    simp only [byteLength]
    omega

/-! What a location counts. -/

/-- The place behind a text that stands at the start of the source: its newlines, the characters of
its last line, and its bytes. -/
def Location.behind (text : List Char) : Location :=
  ⟨text.count '\n', (lastLine text).length, byteLength text⟩

theorem lastLine_append_singleton (text : List Char) (c : Char) :
    lastLine (text ++ [c]) = if c = '\n' then [] else lastLine text ++ [c] := by
  unfold lastLine
  by_cases h : c = '\n'
  · simp [h]
  · simp [h]

theorem Location.advance_behind (text : List Char) (c : Char) :
    (Location.behind text).advance c = .behind (text ++ [c]) := by
  by_cases h : c = '\n'
  · simp [Location.advance, Location.behind, lastLine_append_singleton, byteLength_append, byteLength,
      h]
  · simp [Location.advance, Location.behind, lastLine_append_singleton, byteLength_append, byteLength,
      h]

theorem Location.after_behind (before text : List Char) :
    (Location.behind before).after text = .behind (before ++ text) := by
  induction text generalizing before with
  | nil => simp [Location.after]
  | cons c text ih =>
    have hstep : (Location.behind before).after (c :: text) =
        ((Location.behind before).advance c).after text := rfl
    rw [hstep, advance_behind, ih, List.append_assoc, List.singleton_append]

/-! Pieces between byte offsets. -/

theorem splitAtByte_append (before behind : List Char) :
    splitAtByte (byteLength before) (before ++ behind) = (before, behind) := by
  induction before with
  | nil =>
    cases behind with
    | nil => rfl
    | cons c behind =>
      have hsize := c.utf8Size_pos
      rw [byteLength, List.nil_append, splitAtByte, if_neg (by omega)]
  | cons c before ih =>
    rw [byteLength, List.cons_append, splitAtByte, if_pos (Nat.le_add_right _ _),
      Nat.add_sub_cancel_left, ih]

/-- The characters of a text from one byte offset to another. -/
def slice (start stop : Nat) (text : List Char) : List Char :=
  (splitAtByte (stop - start) (splitAtByte start text).2).1

theorem slice_append (before piece behind : List Char) :
    slice (byteLength before) (byteLength (before ++ piece)) (before ++ piece ++ behind) =
      piece := by
  rw [slice, List.append_assoc, splitAtByte_append, byteLength_append, Nat.add_sub_cancel_left,
    splitAtByte_append]

/-- A byte offset at which no character of the text is cut. -/
def IsBoundary (offset : Nat) (text : List Char) : Prop :=
  ∃ before behind, text = before ++ behind ∧ byteLength before = offset

theorem isBoundary_append (before behind : List Char) :
    IsBoundary (byteLength before) (before ++ behind) :=
  ⟨before, behind, rfl, rfl⟩

end Scripting
