/-
**The part of an automaton that reads a character of a set.**

The automaton reads bytes. For ASCII one state with all ranges is enough. Otherwise the sequences of
byte ranges are read forward by a tree with shared ends: a state that is about to be made and equals
one that is still in a table of 10,000 slots is not made again. Read backward, each sequence is a
path of its own, apart from the ends that are still in a table of 1,000 slots.
-/

import TableLexer.Pattern.CharSet
import TableLexer.Pattern.Size.Slots
import TableLexer.Pattern.Size.Tally
import TableLexer.Text.Utf8Range

namespace TableLexer.Pattern

/-- A range of bytes and the state that follows it. -/
structure ByteStep where
  first : Nat
  last : Nat
  next : Nat
  deriving DecidableEq, Repr

/-- A tally, and the states that can be shared. -/
structure Sharing (κ : Type) where
  tally : Tally
  slots : SlotTree (κ × Nat) := .empty

namespace Sharing

/-- The number of a state: the shared one if it is still there, else that of a new one. -/
def state? {κ : Type} [BEq κ] (levels slot : Nat) (key : κ) (make : Tally → Option Tally)
    (sharing : Sharing κ) : Option (Nat × Sharing κ) :=
  let make : Option (Nat × Sharing κ) :=
    (make sharing.tally).map fun tally =>
      let made := sharing.tally.states
      (made, { tally, slots := sharing.slots.set levels slot (key, made) })
  match sharing.slots.get? slot with
  | none => make
  | some (other, known) => if other == key then some (known, sharing) else make

end Sharing

/-- The sequences by their first ranges, those with one first range together. -/
def byFirstRange : List (List (Nat × Nat)) → List ((Nat × Nat) × List (List (Nat × Nat)))
  | [] => []
  | [] :: rest => byFirstRange rest
  | (range :: tail) :: rest =>
    match byFirstRange rest with
    | [] => [(range, [tail])]
    | (next, tails) :: more =>
      if range = next then (range, tail :: tails) :: more
      else (range, [tail]) :: (next, tails) :: more

/-- The state with the given steps, shared if possible. -/
def stateOfSteps (steps : List ByteStep) (sharing : Sharing (List ByteStep)) :
    Option (Nat × Sharing (List ByteStep)) :=
  let slot := slotOf 10000 (steps.flatMap fun step => [step.first, step.last, step.next])
  sharing.state? 14 slot steps (·.addRanges steps.length)

/-- Numbers the states of the tree of some sequences, those below a state before it, and gives the
state at its root. All sequences end in the state `target`; none has more than `levels` ranges. -/
def treeOf (target : Nat) : Nat → List (List (Nat × Nat)) → Sharing (List ByteStep) →
    Option (Nat × Sharing (List ByteStep))
  | 0, _, sharing => some (target, sharing)
  | levels + 1, sequences, sharing => do
    let (steps, sharing) ← (byFirstRange sequences).foldlM
      (fun (steps, sharing) ((first, last), tails) => do
        let (next, sharing) ←
          if tails.all List.isEmpty then some (target, sharing)
          else treeOf target levels tails sharing
        return (⟨first, last, next⟩ :: steps, sharing))
      (([] : List ByteStep), sharing)
    stateOfSteps steps.reverse sharing

/-- The state that reads a range of bytes and goes on to a state, shared if possible. -/
def stateBefore (sharing : Sharing ByteStep) (next : Nat) (range : Nat × Nat) :
    Option (Nat × Sharing ByteStep) :=
  let slot := slotOf 1000 [next, range.1, range.2]
  sharing.state? 10 slot ⟨range.1, range.2, next⟩ (·.addStates 1)

/-- Numbers the states that read a sequence backward and then go on to `target`. -/
def pathOf (target : Nat) (sequence : List (Nat × Nat)) (sharing : Sharing ByteStep) :
    Option (Sharing ByteStep) := do
  let (_, sharing) ← sequence.foldlM (fun (next, sharing) range => stateBefore sharing next range)
    (target, sharing)
  return { sharing with tally := ← sharing.tally.spend Tally.linkBytes }

namespace CharSet

/-- All characters of the set are ASCII characters. -/
def isAscii (set : CharSet) : Bool := set.ranges.getLast?.all fun range => decide (range.2 < 0x80)

/-- The sequences of byte ranges of the set. -/
def byteRanges (set : CharSet) : List (List (Nat × Nat)) := set.ranges.flatMap Text.utf8Ranges

/-- Counts the states that read a character of the set. -/
def count (backward : Bool) (set : CharSet) (tally : Tally) : Option Tally := do
  if set.isAscii then (← tally.addStates 1).addRanges set.ranges.length
  else if backward then
    let target := tally.states + 1
    let tally ← tally.addStates 2
    let sharing ← set.byteRanges.foldlM (fun sharing sequence => pathOf target sequence sharing)
      { tally }
    return sharing.tally
  else
    let target := tally.states
    let (_, sharing) ← treeOf target 4 set.byteRanges { tally := ← tally.addStates 1 }
    return sharing.tally

end CharSet

end TableLexer.Pattern
