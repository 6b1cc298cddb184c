/-
**Sets of characters as a pattern writes them.**

A term is a character, a range, a class, or a bracket `[…]` built from them. What it stands for
depends on whether case counts (`value`): without regard to case every bracket, every named ASCII
class and both operands of a set operation are closed under case variants, before a negation takes
its effect; a class with an escape of its own is left as it is.
-/

import TableLexer.Pattern.CharClass

namespace TableLexer.Pattern

/-- The operations on sets inside a bracket: `&&`, `--` and `~~`. -/
inductive SetOperation where
  | intersection
  | difference
  | symmetricDifference
  deriving DecidableEq, Repr

/-- The result of the operation. -/
def SetOperation.combine : SetOperation → CharSet → CharSet → CharSet
  | .intersection => CharSet.intersection
  | .difference => CharSet.difference
  | .symmetricDifference => CharSet.symmetricDifference

/-- A set of characters as it is written. -/
inductive SetTerm where
  | nothing
  | range (first last : Char)
  | ofClass (cls : CharClass) (negated : Bool)
  | ascii (set : CharSet) (negated : Bool)
  /-- Items of a bracket, one after another. -/
  | also (items : SetTerm) (item : SetTerm)
  /-- The items of a bracket with more than one. -/
  | several (items : SetTerm)
  | combine (operation : SetOperation) (left right : SetTerm)
  | bracket (body : SetTerm) (negated : Bool)
  deriving DecidableEq, Repr

namespace SetTerm

/-- The term of one character. -/
def single (c : Char) : SetTerm := .range c c

/-- The set or its complement. -/
def negateIf (negated : Bool) (set : CharSet) : CharSet := if negated then set.complement else set

/-- The characters that the term stands for. -/
def value (ignoreCase : Bool) : SetTerm → CharSet
  | nothing => {}
  | range first last => .ofRange first last
  | ofClass cls negated => negateIf negated cls.set
  | ascii set negated => negateIf negated (set.closed ignoreCase)
  | also items item => (items.value ignoreCase).union (item.value ignoreCase)
  | several items => items.value ignoreCase
  | combine operation left right =>
    operation.combine ((left.value ignoreCase).closed ignoreCase)
      ((right.value ignoreCase).closed ignoreCase)
  | bracket body negated => negateIf negated ((body.value ignoreCase).closed ignoreCase)

/-- How deep brackets, lists of items and operations are nested in the term. -/
def depth : SetTerm → Nat
  | nothing | range _ _ | ofClass _ _ | ascii _ _ => 0
  | also items item => max items.depth item.depth
  | several items => items.depth + 1
  | combine _ left right => max left.depth right.depth + 1
  | bracket body _ => body.depth + 1

/-- The items of a bracket as one term. -/
def ofItems : List SetTerm → SetTerm
  | [] => nothing
  | [item] => item
  | item :: items => several (items.foldl also item)

end SetTerm

end TableLexer.Pattern
