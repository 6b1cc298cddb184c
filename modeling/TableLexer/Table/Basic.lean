/-
**Tables of rules**: the lexical grammar of a language, as it is described and as it is built.

A table has named states, each an ordered list of rules; a rule is a pattern and what to do with a
match. A scan starts in the state `root`.
-/

import TableLexer.Pattern.Regex
import TableLexer.Table.Behavior
import TableLexer.Table.Descriptor

namespace TableLexer

/-- The name of the state in which every scan starts. -/
def rootName : String := "root"

/-- The flags of a table that names none. -/
def defaultFlags : Pattern.Flags := { multiLine := true }

/-- A rule as it is described. -/
structure RuleSource where
  pattern : String
  behavior : Behavior String
  deriving DecidableEq, Repr

/-- A table as it is described. -/
structure TableSource where
  flags : Pattern.Flags := defaultFlags
  /-- The states by name, in the order of their declaration. -/
  states : List (String × List RuleSource)
  deriving DecidableEq, Repr

/-- A state of a built table, by its place in the order of declaration. -/
structure StateId where
  index : Nat
  deriving DecidableEq, Repr

/-- A rule of a built table. -/
structure Rule where
  /-- The pattern as it was described. -/
  source : String
  regex : Pattern.Regex
  behavior : Behavior StateId
  deriving DecidableEq, Repr

/-- A state of a built table. -/
structure State where
  name : String
  rules : List Rule
  deriving DecidableEq, Repr

/-- A built table. -/
structure Table where
  descriptor : Descriptor
  states : List State
  root : StateId
  deriving DecidableEq, Repr

/-- The place of the state with the given name. -/
def stateIndex? (names : List String) (name : String) : Option StateId :=
  (names.idxOf? name).map StateId.mk

namespace Table

/-- The language of the table. -/
def language (table : Table) : String := table.descriptor.name

/-- The state of an index. A built table refers to its own states only; any other index has no
rules. -/
def state (table : Table) (id : StateId) : State := table.states.getD id.index ⟨"", []⟩

/-- The state with the given name. -/
def stateId? (table : Table) (name : String) : Option StateId :=
  stateIndex? (table.states.map State.name) name

/-- The number of rules of all states. -/
def ruleCount (table : Table) : Nat :=
  table.states.foldl (fun count state => count + state.rules.length) 0

end Table

/-- A pattern that matches any of the words where a word ends. -/
def wholeWords (words : List String) : String := "(?:" ++ "|".intercalate words ++ ")\\b"

end TableLexer
