/-
**A table with a fixed number of slots.**

A key is kept in the slot of its hash, where it displaces the key that was there before; so what was
put into the table may be gone. The slots are the leaves of a binary tree, found by the bits of their
numbers, the lowest bit first.
-/

namespace TableLexer.Pattern

/-- A binary tree of slots. -/
inductive SlotTree (α : Type) where
  | empty
  | slot (value : α)
  | fork (even odd : SlotTree α)

namespace SlotTree

variable {α : Type}

/-- What is in the slot. -/
def get? : SlotTree α → Nat → Option α
  | empty, _ => none
  | slot value, _ => some value
  | fork even odd, index => if index % 2 = 0 then even.get? (index / 2) else odd.get? (index / 2)

/-- Puts a value into a slot of a tree with so many levels. -/
def set : Nat → SlotTree α → Nat → α → SlotTree α
  | 0, _, _, value => slot value
  | levels + 1, tree, index, value =>
    let (even, odd) := match tree with
      | fork even odd => (even, odd)
      | _ => (empty, empty)
    if index % 2 = 0 then fork (even.set levels (index / 2) value) odd
    else fork even (odd.set levels (index / 2) value)

end SlotTree

/-- Mixes a number into a hash value. -/
def mixHash (hash : UInt64) (value : Nat) : UInt64 := (hash ^^^ value.toUInt64) * 0x100000001b3

/-- The slot of a list of numbers among so many. -/
def slotOf (slots : Nat) (values : List Nat) : Nat :=
  (values.foldl mixHash 0xcbf29ce484222325).toNat % slots

end TableLexer.Pattern
