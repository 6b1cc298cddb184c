/-
**The stack of active states.**

The topmost state chooses the rules. A stack is never empty: its lowest entry cannot be removed.
-/

import TableLexer.Table.Basic

namespace TableLexer

/-- The active states: the topmost one and those below it. -/
structure StateStack where
  top : StateId
  /-- The states under the top, the highest first. -/
  below : List StateId := []
  deriving DecidableEq, Repr

namespace StateStack

/-- The stack of a scan that starts in the given state. -/
def new (root : StateId) : StateStack := { top := root }

/-- The number of entries. -/
def depth (stack : StateStack) : Nat := stack.below.length + 1

/-- Enters a state. -/
def push (stack : StateStack) (state : StateId) : StateStack := ⟨state, stack.top :: stack.below⟩

/-- Leaves the topmost state: the state that was left and the stack under it, or `none` when only
one entry is left. -/
def pop? (stack : StateStack) : Option (StateId × StateStack) :=
  match stack.below with
  | [] => none
  | next :: below => some (stack.top, ⟨next, below⟩)

/-- Leaving a state that was just entered gives back the stack. -/
theorem pop?_push (stack : StateStack) (state : StateId) :
    (stack.push state).pop? = some (state, stack) := rfl

end StateStack

end TableLexer
