/-
**From the parts of a pattern to its tree.**

The parts are taken from left to right. An assembly holds the groups that are open, the flags in
force, and for the innermost group its finished alternatives and the items of the current one. A
change of flags lasts to the end of the group around it, through later alternatives too.

With every tree goes the depth to which it was nested as written: a group, a repetition, a sequence
of several items and a choice of several alternatives are each one level deeper than what they hold.
A pattern that is nested too deep is refused.
-/

import TableLexer.Pattern.Lexeme
import TableLexer.Pattern.Node

namespace TableLexer.Pattern

/-- A part of a pattern: its tree, and how deep it was nested as written. -/
structure Part where
  node : Node
  depth : Nat := 0
  /-- A quantifier may follow, as it may not follow a change of flags. -/
  repeatable : Bool := true
  deriving DecidableEq, Repr

namespace Part

/-- The depth of a list of parts: one level deeper than the parts if there are several. -/
def depthOf : List Part → Nat
  | [] => 0
  | [part] => part.depth
  | parts => parts.foldl (fun deepest part => max deepest part.depth) 0 + 1

/-- The parts one after another. -/
def sequence (parts : List Part) : Part where
  node := .sequence (parts.map node)
  depth := depthOf parts

/-- The parts as alternatives. -/
def alternatives (parts : List Part) : Part where
  node := .alternatives (parts.map node)
  depth := depthOf parts

/-- The part in a group, which captures if it has an index. -/
def group (index : Option Nat) (part : Part) : Part where
  node := match index with
    | none => part.node
    | some index => .group index part.node
  depth := part.depth + 1

/-- The part repeated. -/
def times (part : Part) (least : Nat) (most : Option Nat) (greedy : Bool) : Part where
  node := part.node.times least most greedy
  depth := part.depth + 1

end Part

/-- An open group, or the whole pattern: the alternatives and the items read so far, both with the
latest first. -/
structure OpenGroup where
  /-- The number of the group if it captures. -/
  index : Option Nat := none
  /-- The flags to return to when the group ends. -/
  outerFlags : Flags
  branches : List Part := []
  items : List Part := []
  deriving Repr

namespace OpenGroup

/-- The current alternative. -/
def branch (group : OpenGroup) : Part := .sequence group.items.reverse

/-- What the group holds when it ends here. -/
def body (group : OpenGroup) : Part := .alternatives (group.branch :: group.branches).reverse

/-- Adds a part to the current alternative. -/
def add (group : OpenGroup) (part : Part) : OpenGroup :=
  { group with items := part :: group.items }

end OpenGroup

/-- A pattern that is being put together. -/
structure Assembly where
  flags : Flags
  /-- The number of capturing groups opened so far. -/
  groupCount : Nat := 0
  /-- The names of groups given so far. -/
  names : List (List Char) := []
  current : OpenGroup
  /-- The groups around the current one, the innermost first. -/
  outer : List OpenGroup := []
  deriving Repr

namespace Assembly

/-- How deep a pattern may be nested. -/
def depthBound : Nat := 250

/-- The assembly of a pattern of which nothing is read yet. -/
def start (flags : Flags) : Assembly := { flags, current := { outerFlags := flags } }

/-- Adds a part to the current alternative. -/
def add (assembly : Assembly) (part : Part) : Assembly :=
  { assembly with current := assembly.current.add part }

/-- Opens a group with the given flags inside. -/
def openGroup (assembly : Assembly) (index : Option Nat) (flags : Flags) : Assembly :=
  { assembly with
    flags
    current := { index, outerFlags := assembly.flags }
    outer := assembly.current :: assembly.outer }

/-- Repeats the latest item. -/
def repeatLast? (assembly : Assembly) (least : Nat) (most : Option Nat) (greedy : Bool) :
    Option Assembly :=
  match assembly.current.items with
  | [] => none
  | part :: items =>
    if part.repeatable then
      let items := part.times least most greedy :: items
      some { assembly with current := { assembly.current with items } }
    else none

/-- Takes one lexeme of the pattern. -/
def take? (assembly : Assembly) : Lexeme → Option Assembly
  | .literal c => some (assembly.add { node := .ofChar assembly.flags.ignoreCase c })
  | .anyChar =>
    let excluded : CharSet := if assembly.flags.dotAll then {} else .single '\n'
    some (assembly.add { node := .ofSet excluded.complement })
  | .oneOf term =>
    some (assembly.add
      { node := .ofSet (term.value assembly.flags.ignoreCase), depth := term.depth })
  | .look assertion => some (assembly.add { node := .look assertion })
  | .caret =>
    some (assembly.add { node := .look (if assembly.flags.multiLine then .lineStart else .textStart) })
  | .dollar =>
    some (assembly.add { node := .look (if assembly.flags.multiLine then .lineEnd else .textEnd) })
  | .bar =>
    let group := assembly.current
    some { assembly with
      current := { group with branches := group.branch :: group.branches, items := [] } }
  | .openGroup name =>
    if name.any assembly.names.contains then none
    else
      let index := assembly.groupCount + 1
      let assembly := { assembly with groupCount := index, names := name.toList ++ assembly.names }
      some (assembly.openGroup (some index) assembly.flags)
  | .openPlain change => some (assembly.openGroup none (change.apply assembly.flags))
  | .setFlags change =>
    let flags := change.apply assembly.flags
    some ({ assembly with flags }.add { node := .empty, repeatable := false })
  | .close =>
    match assembly.outer with
    | [] => none
    | parent :: outer =>
      let closed := assembly.current
      some { assembly with
        flags := closed.outerFlags
        current := parent.add (closed.body.group closed.index)
        outer }
  | .times least most greedy => assembly.repeatLast? least most greedy

/-- The tree of the whole pattern, if no group is left open and it is not nested too deep. -/
def finish? (assembly : Assembly) : Option Node :=
  match assembly.outer with
  | [] =>
    let whole := assembly.current.body
    if whole.depth ≤ depthBound then some whole.node else none
  | _ :: _ => none

end Assembly

/-- The tree of a written pattern: `none` when the pattern is malformed. -/
def Node.parse? (flags : Flags) (text : List Char) : Option Node := do
  let lexemes ← Lexeme.readAll? text
  (← lexemes.foldlM Assembly.take? (.start flags)).finish?

end TableLexer.Pattern
