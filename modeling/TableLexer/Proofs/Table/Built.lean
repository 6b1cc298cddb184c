/-
**What is known of a built table.**

A table that was built has states of different names, its patterns are compiled from those of its
description, and its rules enter states of its own.

* `Behavior.exists_of_resolve`: a state that a behaviour enters is one that was found for a name.
* `Table.wellBuilt_of_build`: what is known of a table that was built.
-/

import Mathlib.Data.List.Nodup
import TableLexer.Proofs.Scan.Parts
import TableLexer.Table.Build

namespace TableLexer

open Pattern (Regex)

/-- The rule matches the pattern that was described, wrapped and under the flags. -/
def Rule.Compiled (flags : Pattern.Flags) (rule : Rule) : Prop :=
  Regex.compile? flags rule.source = some rule.regex

/-! ### The states that a rule enters -/

theorem exists_of_map_eq_ok {ε α β : Type} {f : α → β} {outcome : Except ε α} {b : β}
    (mapped : outcome.map f = .ok b) : ∃ a, outcome = .ok a ∧ f a = b := by
  cases outcome with
  | error => cases mapped
  | ok a => exact ⟨a, rfl, Except.ok.inj mapped⟩

/-- The state that the action enters. -/
def Action.entered? {State : Type} : Action State → Option State
  | .push state => some state
  | _ => none

/-- The states that the behaviour enters. -/
def Behavior.entered {State : Type} : Behavior State → List State
  | .emitAndPush _ state => [state]
  | .composite actions => actions.filterMap Action.entered?
  | _ => []

theorem Action.exists_of_resolveAll {State Resolved ε : Type} {find : State → Except ε Resolved}
    {actions : List (Action State)} {resolved : List (Action Resolved)}
    (outcome : Action.resolveAll find actions = .ok resolved) :
    ∀ state ∈ resolved.filterMap Action.entered?, ∃ target, find target = .ok state := by
  induction actions generalizing resolved with
  | nil =>
    cases outcome
    simp
  | cons action rest ih =>
    unfold resolveAll at outcome
    cases first : action.resolve find with
    | error => rw [first] at outcome; cases outcome
    | ok head =>
      cases others : resolveAll find rest with
      | error => rw [first, others] at outcome; cases outcome
      | ok tail =>
        rw [first, others] at outcome
        cases outcome
        intro state member
        obtain ⟨entering, among, enters⟩ := List.mem_filterMap.mp member
        rcases List.mem_cons.mp among with rfl | later
        · cases action with
          | push target =>
            obtain ⟨found, same, rfl⟩ := exists_of_map_eq_ok first
            cases enters
            exact ⟨target, same⟩
          | emit | delegate | pop => cases first; cases enters
        · exact ih others state (List.mem_filterMap.mpr ⟨entering, later, enters⟩)

/-- A state that a behaviour enters stands for one that it was described with. -/
theorem Behavior.exists_of_resolve {State Resolved ε : Type} {find : State → Except ε Resolved}
    {behavior : Behavior State} {resolved : Behavior Resolved}
    (outcome : behavior.resolve find = .ok resolved) :
    ∀ state ∈ resolved.entered, ∃ target, find target = .ok state := by
  cases behavior with
  | emit | emitAndPop | delegate =>
    cases outcome
    exact nofun
  | emitAndPush kind target =>
    obtain ⟨state, found, rfl⟩ := exists_of_map_eq_ok outcome
    intro other member
    rw [List.mem_singleton.mp member]
    exact ⟨target, found⟩
  | composite actions =>
    obtain ⟨all, found, rfl⟩ := exists_of_map_eq_ok outcome
    exact Action.exists_of_resolveAll found

namespace Table

variable {setting : Setting} {name : String} {index : Nat}

theorem compiled_of_buildRule {source : RuleSource} {rule : Rule}
    (built : buildRule setting name index source = .ok rule) : rule.Compiled setting.flags := by
  unfold buildRule at built
  cases compiled : Regex.compile? setting.flags source.pattern with
  | none => rw [compiled] at built; cases built
  | some regex =>
    simp only [compiled] at built
    split at built
    · cases built
    · generalize source.behavior.resolve _ = behavior at built
      cases behavior with
      | error => cases built
      | ok behavior =>
        cases built
        exact compiled

/-- A state that a built rule enters is one that its description names. -/
theorem exists_of_entered {source : RuleSource} {rule : Rule}
    (built : buildRule setting name index source = .ok rule) :
    ∀ id ∈ rule.behavior.entered, ∃ target, stateIndex? setting.names target = some id := by
  unfold buildRule at built
  split at built
  · cases built
  · split at built
    · cases built
    · dsimp only at built
      obtain ⟨behavior, resolved, rfl⟩ := exists_of_map_eq_ok built
      intro id enters
      obtain ⟨target, found⟩ := Behavior.exists_of_resolve resolved id enters
      refine ⟨target, ?_⟩
      split at found
      · rename_i same
        cases found
        exact same
      · cases found

theorem exists_of_buildRules {sources : List RuleSource} {rules : List Rule}
    (built : buildRules setting name index sources = .ok rules) :
    ∀ rule ∈ rules, ∃ place source, buildRule setting name place source = .ok rule := by
  induction sources generalizing index rules with
  | nil =>
    cases built
    simp
  | cons source sources ih =>
    unfold buildRules at built
    cases first : buildRule setting name index source with
    | error => rw [first] at built; cases built
    | ok rule =>
      cases others : buildRules setting name (index + 1) sources with
      | error => rw [first, others] at built; cases built
      | ok rest =>
        rw [first, others] at built
        cases built
        exact List.forall_mem_cons.mpr ⟨⟨index, source, first⟩, ih others⟩

theorem exists_of_buildStates {sources : List (String × List RuleSource)} {states : List State}
    (built : buildStates setting sources = .ok states) :
    states.map State.name = sources.map Prod.fst ∧
      ∀ state ∈ states, ∀ rule ∈ state.rules,
        ∃ place source, buildRule setting state.name place source = .ok rule := by
  induction sources generalizing states with
  | nil =>
    cases built
    simp
  | cons source sources ih =>
    unfold buildStates at built
    cases first : buildRules setting source.1 0 source.2 with
    | error => simp only [first] at built; cases built
    | ok rules =>
      cases others : buildStates setting sources with
      | error => simp only [first, others] at built; cases built
      | ok rest =>
        simp only [first, others] at built
        cases built
        obtain ⟨names, built_rest⟩ := ih others
        exact ⟨congrArg (source.1 :: ·) names,
          List.forall_mem_cons.mpr ⟨exists_of_buildRules first, built_rest⟩⟩

/-- A name is given as repeated if it occurs twice, or occurs among those seen before. -/
theorem nodup_of_firstRepeated? {seen names : List String}
    (none_repeated : firstRepeated? seen names = none) :
    names.Nodup ∧ ∀ name ∈ names, name ∉ seen := by
  induction names generalizing seen with
  | nil => exact ⟨List.nodup_nil, nofun⟩
  | cons name rest ih =>
    unfold firstRepeated? at none_repeated
    split at none_repeated
    · cases none_repeated
    · rename_i unseen
      obtain ⟨distinct, fresh⟩ := ih none_repeated
      refine ⟨List.nodup_cons.mpr ⟨fun again => fresh name again List.mem_cons_self, distinct⟩, ?_⟩
      intro other member
      rcases List.mem_cons.mp member with rfl | later
      · simpa using unseen
      · exact fun before => fresh other later (List.mem_cons_of_mem name before)

/-- A name that has an index is one of the names, and the index is its place. -/
theorem index_lt_of_stateIndex? {names : List String} {id : StateId}
    (found : stateIndex? names name = some id) : id.index < names.length := by
  unfold stateIndex? at found
  obtain ⟨place, at_place, rfl⟩ := Option.map_eq_some_iff.mp found
  exact (List.findIdx?_eq_some_iff_getElem.mp at_place).1

/-- What is known of a table that was built. -/
structure WellBuilt (flags : Pattern.Flags) (table : Table) : Prop where
  /-- No two states have the same name. -/
  distinct : (table.states.map State.name).Nodup
  root : table.root.index < table.states.length
  compiled : ∀ rule ∈ table.rules, rule.Compiled flags
  /-- Rules enter states of the table only. -/
  entered : ∀ rule ∈ table.rules, ∀ id ∈ rule.behavior.entered, id.index < table.states.length

/-- States of the same name are the same. -/
theorem WellBuilt.eq_of_name_eq {flags : Pattern.Flags} {table : Table} (built : table.WellBuilt flags)
    {one other : State} (member : one ∈ table.states) (also : other ∈ table.states)
    (same : one.name = other.name) : one = other :=
  List.inj_on_of_nodup_map built.distinct member also same

theorem wellBuilt_of_build {descriptor : Descriptor} {source : TableSource} {table : Table}
    (built : Table.build descriptor source = .ok table) : table.WellBuilt source.flags := by
  unfold build at built
  dsimp only at built
  split at built
  · cases built
  · rename_i none_repeated
    split at built
    · cases built
    · rename_i root at_root
      cases outcome : buildStates ⟨descriptor.name, source.flags, source.states.map Prod.fst⟩
          source.states with
      | error => rw [outcome] at built; cases built
      | ok states =>
        rw [outcome] at built
        cases built
        obtain ⟨names, rules_built⟩ := exists_of_buildStates outcome
        have count : (source.states.map Prod.fst).length = states.length := by
          rw [← names, List.length_map]
        have from_source (rule : Rule) (member : rule ∈ Table.rules ⟨descriptor, states, root⟩) :
            ∃ name place source', buildRule ⟨descriptor.name, source.flags,
              source.states.map Prod.fst⟩ name place source' = .ok rule := by
          obtain ⟨state, state_member, rule_member⟩ := List.mem_flatMap.mp member
          obtain ⟨place, rule_source, rule_built⟩ := rules_built state state_member rule rule_member
          exact ⟨state.name, place, rule_source, rule_built⟩
        refine ⟨names ▸ (nodup_of_firstRepeated? none_repeated).1,
          count ▸ index_lt_of_stateIndex? at_root, fun rule member => ?_, fun rule member id enters => ?_⟩
        · obtain ⟨_, _, _, rule_built⟩ := from_source rule member
          exact compiled_of_buildRule rule_built
        · obtain ⟨_, _, _, rule_built⟩ := from_source rule member
          obtain ⟨target, found⟩ := exists_of_entered rule_built id enters
          exact count ▸ index_lt_of_stateIndex? found

/-- The patterns of a built table are the wrapped ones of its description. -/
theorem compiled_of_build {descriptor : Descriptor} {source : TableSource} {table : Table}
    (built : Table.build descriptor source = .ok table) :
    ∀ rule ∈ table.rules, rule.Compiled source.flags :=
  (wellBuilt_of_build built).compiled

end Table

end TableLexer
