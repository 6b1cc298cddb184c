/-
**Counting the states of an automaton and the room they take.**

A tally is kept while the states of an automaton are numbered one after another. Counting stops with
`none` as soon as the room exceeds `Tally.bound`, so that it ends soon even for an automaton of
billions of states.
-/

namespace TableLexer.Pattern

/-- The states numbered so far, and the bytes that they take. -/
structure Tally where
  states : Nat := 0
  bytes : Nat := 0
  deriving DecidableEq, Repr

namespace Tally

/-- The most bytes that an automaton may take: 10 MiB. -/
def bound : Nat := 10485760

/-- The bytes that a state takes, apart from what it refers to. -/
def stateBytes : Nat := 32

/-- The bytes of a range of a state that has several. -/
def rangeBytes : Nat := 8

/-- The bytes of a successor of a state that has several. -/
def linkBytes : Nat := 4

/-- Takes more bytes. -/
def spend (bytes : Nat) (tally : Tally) : Option Tally :=
  let total := tally.bytes + bytes
  if total ≤ bound then some { tally with bytes := total } else none

/-- Numbers so many states. -/
def addStates (count : Nat) (tally : Tally) : Option Tally :=
  spend (count * stateBytes) { tally with states := tally.states + count }

/-- Numbers a state with so many ranges. -/
def addRanges (count : Nat) (tally : Tally) : Option Tally :=
  spend (stateBytes + count * rangeBytes) { tally with states := tally.states + 1 }

/-- Numbers a state with so many successors. -/
def addLinks (count : Nat) (tally : Tally) : Option Tally :=
  spend (stateBytes + count * linkBytes) { tally with states := tally.states + 1 }

/-- Counts so many times over. -/
def times (count : Tally → Option Tally) : Nat → Tally → Option Tally
  | 0, tally => some tally
  | more + 1, tally => (count tally).bind (times count more)

/-- Counts for each element of a list. -/
def forEach {α : Type} (count : α → Tally → Option Tally) : List α → Tally → Option Tally
  | [], tally => some tally
  | a :: rest, tally => (count a tally).bind (forEach count rest)

end Tally

end TableLexer.Pattern
