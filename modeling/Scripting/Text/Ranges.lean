/-!
Sets of characters, given by ranges of code points.
-/

namespace Scripting.Text

/-- Holds if the code point of a character is in one of the ranges. They are given in increasing
order, so the search ends at the first range that lies behind the character. -/
def inRanges (c : Char) : List (Nat × Nat) → Bool
  | [] => false
  | (first, last) :: rest =>
    if c.toNat < first then false else c.toNat ≤ last || inRanges c rest

end Scripting.Text
