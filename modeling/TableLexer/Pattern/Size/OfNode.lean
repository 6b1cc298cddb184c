/-
**The size of the automaton of a pattern.**

A pattern is refused when the automaton that reads it, forward or backward, would take more than
`Tally.bound` bytes. The automaton has a part for each part of the pattern, and a counted repetition has as
many copies of its body. It is not made: its states are numbered in the order in which they would be
made (`Node.count`), because the numbers decide which states of a set can be shared.
-/

import TableLexer.Pattern.Node
import TableLexer.Pattern.Size.OfSet
import TableLexer.Pattern.Size.OfWords

namespace TableLexer.Pattern

namespace Node

/-- The words of a choice between words. -/
def words? : Node → Option (List (List Char))
  | alt (literal text) (literal other) => some [text, other]
  | alt (literal text) others => others.words?.map (text :: ·)
  | _ => none

/-- The bytes of a word in the order of reading. -/
def wordBytes (backward : Bool) (text : List Char) : List Nat :=
  let bytes := text.flatMap fun c => Text.utf8Bytes c.toNat
  if backward then bytes.reverse else bytes

/-- Counts what joins an alternative to those before it: the second one brings the state that branches
and the state where the branches meet. -/
def countJoin : Nat → Tally → Option Tally
  | 0, tally => some tally
  | 1, tally => (tally.addLinks 2).bind (·.addStates 1)
  | _, tally => tally.spend Tally.linkBytes

/-- Counts the copies of a body; no copy at all takes one state. -/
def countCopies (body : Tally → Option Tally) : Nat → Tally → Option Tally
  | 0, tally => tally.addStates 1
  | copies, tally => tally.times body copies

/-- Counts a repeated body. A loop whose body may match nothing is entered through a state of its
own. -/
def countRepeated (body : Tally → Option Tally) (consuming : Bool) (least : Nat)
    (most : Option Nat) (tally : Tally) : Option Tally := do
  match least, most with
  | 0, some 1 => (← body (← tally.addLinks 2)).addStates 1
  | 0, none =>
    if consuming then body (← tally.addLinks 2)
    else (← (← (← body tally).addLinks 2).addLinks 2).addStates 1
  | 1, none => (← body tally).addLinks 2
  | copies + 2, none => (← body (← countCopies body (copies + 1) tally)).addLinks 2
  | least, some most =>
    let tally ← countCopies body least tally
    if most ≤ least then return tally
    else (← tally.addStates 1).times (fun tally => do body (← tally.addLinks 2)) (most - least)

/-- Counts the states of a pattern. `before` is the number of alternatives of the same choice that
were counted before. -/
def count (backward : Bool) : Node → Nat → Tally → Option Tally
  | empty, before, tally | look _, before, tally => do countJoin before (← tally.addStates 1)
  | literal text, before, tally => do
    countJoin before (← tally.addStates (Text.byteLength text))
  | one set, before, tally => do countJoin before (← set.count backward tally)
  | seq first second, before, tally => do
    let tally ←
      if backward then first.count backward 0 (← second.count backward 0 tally)
      else second.count backward 0 (← first.count backward 0 tally)
    countJoin before tally
  | alt first second, before, tally =>
    match before, (alt first second).words? with
    | 0, some words => countWords (words.map (wordBytes backward)) tally
    | before, _ => do
      let tally ← countJoin before (← first.count backward 0 tally)
      second.count backward (before + 1) tally
  | repeated least most _ body, before, tally => do
    let consuming := body.minLength?.any (0 < ·)
    countJoin before (← countRepeated (body.count backward 0) consuming least most tally)
  | group _ body, before, tally => do
    let tally ←
      if backward then body.count backward 0 tally
      else (← body.count backward 0 (← tally.addStates 1)).addStates 1
    countJoin before tally

/-- Counts the states of the whole automaton. One that may start anywhere first has a loop over all
bytes; one that reads forward notes where it starts and ends. -/
def countWhole (node : Node) (backward : Bool) : Option Tally := do
  let anchored := if backward then node.endsWith .textEnd else node.startsWith .textStart
  let start : Tally := {}
  let tally ←
    if anchored then start.addStates 1
    else (← (← start.addLinks 2).addStates 1).addRanges 1
  let whole := if backward then node else group 0 node
  (← whole.count backward 0 tally).addStates 1

/-- The automata of the pattern are not too large. -/
def fits (node : Node) : Bool := (node.countWhole false).isSome && (node.countWhole true).isSome

end Node

end TableLexer.Pattern
