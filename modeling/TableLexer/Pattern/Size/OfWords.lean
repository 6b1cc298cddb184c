/-
**The part of an automaton that reads one of several words.**

Words are read by a tree in which words with a common beginning share it, as far as that keeps their
order of preference: once a word has ended at a node, later words do not share what was branched off
from the node before.
-/

import TableLexer.Pattern.Size.Tally

namespace TableLexer.Pattern

/-- The words between those that are empty. -/
def betweenEmpty : List (List Nat) → List (List (List Nat))
  | [] => [[]]
  | [] :: rest => [] :: betweenEmpty rest
  | word :: rest =>
    match betweenEmpty rest with
    | [] => [[word]]
    | words :: more => (word :: words) :: more

/-- The words by their first bytes, each group without that byte. -/
def byFirstByte (words : List (List Nat)) : List (List (List Nat)) :=
  (words.filterMap List.head?).eraseDups.map fun byte =>
    words.filterMap fun word =>
      match word with
      | [] => none
      | first :: rest => if first = byte then some rest else none

/-- How many ends of words a node keeps. Those before any branch count once. -/
def keptEnds (words : List (List Nat)) : Nat :=
  let early := (words.takeWhile List.isEmpty).length
  min early 1 + (words.countP List.isEmpty - early)

/-- Counts the states of a node where the given words go on, and of the nodes behind it. A node that
no word leaves needs no states. No word is longer than `levels`. -/
def countNode : Nat → List (List Nat) → Tally → Option Tally
  | 0, _, tally => some tally
  | levels + 1, words, tally => do
    let stretches := ((betweenEmpty words).map byFirstByte).filter (!·.isEmpty)
    if stretches.isEmpty then return tally
    let tally ← Tally.forEach (fun branches tally => do
        let tally ← Tally.forEach (countNode levels) branches tally
        if branches.length = 1 then tally.addStates 1 else tally.addRanges branches.length)
      stretches tally
    tally.addLinks (stretches.length + keptEnds words)

/-- Counts the states that read one of the words, given by their bytes. -/
def countWords (words : List (List Nat)) (tally : Tally) : Option Tally := do
  let levels := words.foldl (fun longest word => max longest word.length) 0
  countNode (levels + 1) words (← tally.addStates 1)

end TableLexer.Pattern
