/-
**Sets of characters.**

A set is the list of its ranges of code points, in ascending order and apart from each other. The
code points between U+D7FF and U+E000 stand for no character; a set may span them, and stepping from
an end of a range to its neighbour leaps over them.

* `union`, `intersection`, `difference`, `symmetricDifference`, `complement`: the algebra.
* `closed`: the set with the case variants of its members.
* `contains`: membership.
-/

import TableLexer.Text.Blank
import TableLexer.Text.Folding
import TableLexer.Text.Word

namespace TableLexer.Pattern

/-- A set of characters, by its ranges of code points. -/
structure CharSet where
  ranges : List (Nat × Nat) := []
  deriving DecidableEq, Repr

namespace CharSet

/-- The largest code point. -/
def lastCode : Nat := 0x10FFFF

/-- The code point of the next character. -/
def nextCode (code : Nat) : Nat := if code = 0xD7FF then 0xE000 else code + 1

/-- The code point of the character before. -/
def previousCode (code : Nat) : Nat := if code = 0xE000 then 0xD7FF else code - 1

/-- The character belongs to the set. -/
def contains (set : CharSet) (c : Char) : Bool := Text.inRanges c.toNat set.ranges

/-- The characters from one to another. -/
def ofRange (first last : Char) : CharSet := ⟨[(first.toNat, last.toNat)]⟩

/-- The set of one character. -/
def single (c : Char) : CharSet := ofRange c c

/-! ### Union -/

/-- A range put before ascending ranges that begin no earlier; ranges that touch become one. -/
def joinFront (first last : Nat) : List (Nat × Nat) → List (Nat × Nat)
  | [] => [(first, last)]
  | (nextFirst, nextLast) :: rest =>
    if nextFirst ≤ last + 1 then joinFront first (max last nextLast) rest
    else (first, last) :: joinFront nextFirst nextLast rest

/-- Ranges that begin in ascending order, those that touch made one. -/
def join : List (Nat × Nat) → List (Nat × Nat)
  | [] => []
  | (first, last) :: rest => joinFront first last rest

/-- Puts a range into its place in a list; `merge` merges what is to follow the range. -/
def mergeFront (range : Nat × Nat) (merge : List (Nat × Nat) → List (Nat × Nat)) :
    List (Nat × Nat) → List (Nat × Nat)
  | [] => range :: merge []
  | other :: rest =>
    if range.1 ≤ other.1 then range :: merge (other :: rest)
    else other :: mergeFront range merge rest

/-- Two lists of ranges as one, ordered by where the ranges begin. -/
def merge : List (Nat × Nat) → List (Nat × Nat) → List (Nat × Nat)
  | [] => id
  | range :: rest => mergeFront range (merge rest)

/-- The characters of either set. -/
def union (left right : CharSet) : CharSet := ⟨join (merge left.ranges right.ranges)⟩

/-- The characters of any of the sets. -/
def unions (sets : List CharSet) : CharSet := sets.foldr union {}

/-- The set with the given characters. -/
def ofList (chars : List Char) : CharSet := unions (chars.map single)

/-! ### Complement, intersection, difference -/

/-- The ranges between ascending ranges, the first of which ends at `last`, and after them. -/
def gapsAfter (last : Nat) : List (Nat × Nat) → List (Nat × Nat)
  | [] => if last < lastCode then [(nextCode last, lastCode)] else []
  | (first, nextLast) :: rest =>
    let low := nextCode last
    let high := previousCode first
    (min low high, max low high) :: gapsAfter nextLast rest

/-- The characters outside the set. -/
def complement (set : CharSet) : CharSet :=
  match set.ranges with
  | [] => ⟨[(0, lastCode)]⟩
  | (first, last) :: rest =>
    let gaps := gapsAfter last rest
    ⟨if 0 < first then (0, previousCode first) :: gaps else gaps⟩

/-- The part of a range inside another one. -/
def overlap? (left right : Nat × Nat) : Option (Nat × Nat) :=
  let first := max left.1 right.1
  let last := min left.2 right.2
  if first ≤ last then some (first, last) else none

/-- The characters of both sets. -/
def intersection (left right : CharSet) : CharSet :=
  ⟨left.ranges.flatMap fun range => right.ranges.filterMap (overlap? range)⟩

/-- The parts of a range outside another one. -/
def cut (range other : Nat × Nat) : List (Nat × Nat) :=
  if range.2 < other.1 || other.2 < range.1 then [range]
  else
    (if range.1 < other.1 then [(range.1, previousCode other.1)] else []) ++
      (if other.2 < range.2 then [(nextCode other.2, range.2)] else [])

/-- The characters of the first set that are not in the second. -/
def difference (left right : CharSet) : CharSet :=
  ⟨right.ranges.foldl (fun ranges other => ranges.flatMap (cut · other)) left.ranges⟩

/-- The characters of exactly one of the sets. -/
def symmetricDifference (left right : CharSet) : CharSet :=
  (left.union right).difference (left.intersection right)

/-! ### Case -/

/-- The set together with the images of its members under runs of case folding. -/
def withImages (set : CharSet) (runs : List Text.FoldRun) : CharSet :=
  unions (set :: runs.map fun run => ⟨join (set.ranges.flatMap run.images)⟩)

/-- The set with all case variants of its members: first the foldings of its members, then all that
folds to one of these. -/
def closed (ignoreCase : Bool) (set : CharSet) : CharSet :=
  if ignoreCase then
    (set.withImages Text.foldRuns).withImages (Text.foldRuns.map Text.FoldRun.inverse)
  else set

/-! ### Membership -/

/-- The set of one character holds that character alone. -/
@[simp] theorem contains_single (c d : Char) : (single c).contains d = (d == c) := by
  by_cases same : d = c
  · simp [single, ofRange, contains, Text.inRanges, same]
  · have apart : d.toNat ≠ c.toNat := fun equal => same (Char.toNat_inj.mp equal)
    simp only [single, ofRange, contains, Text.inRanges, beq_eq_false_iff_ne.mpr same,
      Bool.or_false, ite_eq_left_iff, decide_eq_false_iff_not]
    omega

end CharSet

end TableLexer.Pattern
