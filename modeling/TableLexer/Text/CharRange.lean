/-
**Sets of characters given by ranges of code points.**

A range is the pair of its first and its last code point, and a table lists its ranges in
ascending order, so a look-up stops at the first range that lies above the character.
-/

namespace TableLexer.Text

/-- The code point lies in one of the ascending ranges. -/
def inRanges (code : Nat) : List (Nat × Nat) → Bool
  | [] => false
  | (first, last) :: higher =>
    if code < first then false else decide (code ≤ last) || inRanges code higher

end TableLexer.Text
