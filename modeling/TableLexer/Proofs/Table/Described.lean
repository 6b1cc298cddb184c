/-
**What a table is built of.**

A description can be built exactly when its states have distinct names, one of them `root`, and each of its
rules can be built. What is built follows the description state by state and rule by rule: patterns are
compiled, and the names of states give way to their places.

* `Behavior.resolve_eq_ok_iff`: what a behaviour is once its states are found.
* `Table.buildRule_eq_ok_iff`, `buildRules_eq_ok_iff`, `buildStates_eq_ok_iff`: the parts of a table.
* `Table.build_eq_ok_iff`: the table.
* `Table.exists_build_iff`: which descriptions can be built.
-/

import Mathlib.Data.List.Forall2
import TableLexer.Proofs.Table.Built

namespace TableLexer

open Pattern (Regex)

/-- There is a list of related elements if there is one for each. -/
theorem exists_forall₂_iff {α β : Type} {related : α → β → Prop} {elements : List α} :
    (∃ others, List.Forall₂ related elements others) ↔ ∀ a ∈ elements, ∃ b, related a b := by
  induction elements with
  | nil => exact ⟨fun _ => nofun, fun _ => ⟨[], .nil⟩⟩
  | cons first rest ih =>
    rw [List.forall_mem_cons, ← ih]
    constructor
    · rintro ⟨_, _ | ⟨same, others⟩⟩
      exact ⟨⟨_, same⟩, _, others⟩
    · rintro ⟨⟨other, same⟩, others, all⟩
      exact ⟨other :: others, .cons same all⟩

/-- Lists that are related to one list are related to each other, element by element. -/
theorem forall₂_meet {α β γ : Type} {first : α → β → Prop} {second : α → γ → Prop} {both : β → γ → Prop}
    (meet : ∀ a b c, first a b → second a c → both b c) {elements : List α} {ones : List β}
    {others : List γ} (left : List.Forall₂ first elements ones)
    (right : List.Forall₂ second elements others) : List.Forall₂ both ones others := by
  induction left generalizing others with
  | nil => cases right; exact .nil
  | cons one _ ih => cases right with | cons other more => exact .cons (meet _ _ _ one other) (ih more)

/-! ### Behaviours that are alike -/

/-- The actions are the same up to the states that they enter, which are alike. -/
inductive Action.Alike {State Twin : Type} (alike : State → Twin → Prop) :
    Action State → Action Twin → Prop
  | emit (group : Nat) (kind : Kind) : Alike alike (.emit group kind) (.emit group kind)
  | delegate (group : Nat) (target : Target) : Alike alike (.delegate group target) (.delegate group target)
  | push {state : State} {twin : Twin} (same : alike state twin) : Alike alike (.push state) (.push twin)
  | pop : Alike alike .pop .pop

/-- The behaviours are the same up to the states that they enter, which are alike. -/
inductive Behavior.Alike {State Twin : Type} (alike : State → Twin → Prop) :
    Behavior State → Behavior Twin → Prop
  | emit (kind : Kind) : Alike alike (.emit kind) (.emit kind)
  | emitAndPush (kind : Kind) {state : State} {twin : Twin} (same : alike state twin) :
      Alike alike (.emitAndPush kind state) (.emitAndPush kind twin)
  | emitAndPop (kind : Kind) : Alike alike (.emitAndPop kind) (.emitAndPop kind)
  | delegate (target : Target) : Alike alike (.delegate target) (.delegate target)
  | composite {actions : List (Action State)} {twins : List (Action Twin)}
      (each : List.Forall₂ (Action.Alike alike) actions twins) :
      Alike alike (.composite actions) (.composite twins)

section Alike

variable {State One Other : Type} {first : State → One → Prop} {second : State → Other → Prop}
  {alike : One → Other → Prop}

/-- Two actions that come from one are alike. -/
theorem Action.Alike.meet {action : Action State} {one : Action One} {other : Action Other}
    (left : Action.Alike first action one) (right : Action.Alike second action other)
    (both : ∀ state a b, first state a → second state b → alike a b) : Action.Alike alike one other := by
  cases left with
  | emit group kind => cases right; exact .emit group kind
  | delegate group target => cases right; exact .delegate group target
  | push same => cases right with | push also => exact .push (both _ _ _ same also)
  | pop => cases right; exact .pop

/-- Two behaviours that come from one are alike. -/
theorem Behavior.Alike.meet {behavior : Behavior State} {one : Behavior One} {other : Behavior Other}
    (left : Behavior.Alike first behavior one) (right : Behavior.Alike second behavior other)
    (both : ∀ state a b, first state a → second state b → alike a b) :
    Behavior.Alike alike one other := by
  cases left with
  | emit kind => cases right; exact .emit kind
  | emitAndPush kind same =>
    cases right with
    | emitAndPush _ also => exact .emitAndPush kind (both _ _ _ same also)
  | emitAndPop kind => cases right; exact .emitAndPop kind
  | delegate target => cases right; exact .delegate target
  | composite each =>
    cases right with
    | composite also =>
      have meet (action : Action State) (one : Action One) (other : Action Other)
          (same : Action.Alike first action one) (too : Action.Alike second action other) :
          Action.Alike alike one other := same.meet too both
      exact .composite (forall₂_meet meet each also)

/-- A behaviour is like itself if the states that it enters are. -/
theorem Behavior.alike_self {itself : State → State → Prop} {behavior : Behavior State}
    (entered : ∀ state ∈ behavior.entered, itself state state) :
    Behavior.Alike itself behavior behavior := by
  cases behavior with
  | emit kind => exact .emit kind
  | emitAndPush kind state => exact .emitAndPush kind (entered state List.mem_cons_self)
  | emitAndPop kind => exact .emitAndPop kind
  | delegate target => exact .delegate target
  | composite actions =>
    refine .composite (List.forall₂_same.mpr fun action member => ?_)
    cases action with
    | emit group kind => exact .emit group kind
    | delegate group target => exact .delegate group target
    | push state => exact .push (entered state (List.mem_filterMap.mpr ⟨.push state, member, rfl⟩))
    | pop => exact .pop

theorem Behavior.Alike.mono {other : State → One → Prop} {behavior : Behavior State}
    {resolved : Behavior One} (same : Behavior.Alike first behavior resolved)
    (weaker : ∀ state one, first state one → other state one) :
    Behavior.Alike other behavior resolved :=
  (Behavior.alike_self fun _ _ => rfl).meet same fun _ _ _ equal holds =>
    weaker _ _ (equal ▸ holds)

/-- What does not depend on states is the same of actions that are alike. -/
theorem Action.Alike.filterMap_eq {α : Type} {read : Action State → Option α}
    {readTwin : Action One → Option α}
    (same : ∀ {action one}, Action.Alike first action one → readTwin one = read action)
    {actions : List (Action State)} {ones : List (Action One)}
    (each : List.Forall₂ (Action.Alike first) actions ones) :
    ones.filterMap readTwin = actions.filterMap read := by
  induction each with
  | nil => rfl
  | cons alike _ rest => simp [List.filterMap_cons, same alike, rest]

/-- Behaviours that are alike hand on to the same targets, and make tokens of the same kinds. -/
theorem Behavior.Alike.reads_eq {behavior : Behavior State} {one : Behavior One}
    (alike : Behavior.Alike first behavior one) :
    one.targets = behavior.targets ∧ one.kinds = behavior.kinds := by
  cases alike with
  | composite each =>
    have target {action : Action State} {one : Action One} (alike : Action.Alike first action one) :
        one.target? = action.target? := by cases alike <;> rfl
    have kind {action : Action State} {one : Action One} (alike : Action.Alike first action one) :
        one.kind? = action.kind? := by cases alike <;> rfl
    exact ⟨Action.Alike.filterMap_eq target each, Action.Alike.filterMap_eq kind each⟩
  | _ => exact ⟨rfl, rfl⟩

/-- There is a behaviour that is alike if there are states that are alike for those that it enters. -/
theorem Behavior.exists_alike_iff {behavior : Behavior State} :
    (∃ one, Behavior.Alike first behavior one) ↔ ∀ state ∈ behavior.entered, ∃ one, first state one := by
  cases behavior with
  | emit | emitAndPop | delegate => exact ⟨fun _ => nofun, fun _ => ⟨_, by constructor⟩⟩
  | emitAndPush kind target =>
    refine ⟨?_, fun exists_one => ?_⟩
    · rintro ⟨_, ⟨⟩⟩ state member
      rename_i one same
      exact ⟨one, List.mem_singleton.mp member ▸ same⟩
    · obtain ⟨one, same⟩ := exists_one target List.mem_cons_self
      exact ⟨_, .emitAndPush kind same⟩
  | composite actions =>
    have each : (∃ ones, List.Forall₂ (Action.Alike first) actions ones) ↔
        ∀ state ∈ actions.filterMap Action.entered?, ∃ one, first state one := by
      rw [exists_forall₂_iff]
      constructor
      · intro all state member
        obtain ⟨action, among, enters⟩ := List.mem_filterMap.mp member
        obtain ⟨one, same⟩ := all action among
        cases same with
        | push same => cases enters; exact ⟨_, same⟩
        | emit | delegate | pop => cases enters
      · intro all action among
        cases action with
        | emit group kind => exact ⟨_, .emit group kind⟩
        | delegate group target => exact ⟨_, .delegate group target⟩
        | push state =>
          obtain ⟨one, same⟩ := all state (List.mem_filterMap.mpr ⟨.push state, among, rfl⟩)
          exact ⟨_, .push same⟩
        | pop => exact ⟨_, .pop⟩
    refine Iff.trans ⟨?_, ?_⟩ each
    · rintro ⟨_, ⟨⟩⟩
      rename_i ones same
      exact ⟨ones, same⟩
    · rintro ⟨ones, same⟩
      exact ⟨_, .composite same⟩

variable {ε : Type} {find : State → Except ε One}

theorem Action.resolve_eq_ok_iff {action : Action State} {resolved : Action One} :
    action.resolve find = .ok resolved ↔
      Action.Alike (fun state found => find state = .ok found) action resolved := by
  cases action with
  | emit | delegate | pop =>
    constructor
    · rintro ⟨⟩
      constructor
    · rintro ⟨⟩
      rfl
  | push state =>
    constructor
    · intro outcome
      obtain ⟨found, same, rfl⟩ := exists_of_map_eq_ok outcome
      exact .push same
    · rintro ⟨⟩
      rename_i found same
      exact congrArg (Except.map Action.push) same

theorem Action.resolveAll_eq_ok_iff {actions : List (Action State)} {resolved : List (Action One)} :
    Action.resolveAll find actions = .ok resolved ↔
      List.Forall₂ (Action.Alike fun state found => find state = .ok found) actions resolved := by
  induction actions generalizing resolved with
  | nil =>
    constructor
    · rintro ⟨⟩
      exact .nil
    · rintro ⟨⟩
      rfl
  | cons action rest ih =>
    unfold resolveAll
    constructor
    · intro outcome
      cases first : action.resolve find with
      | error => rw [first] at outcome; cases outcome
      | ok head =>
        cases others : resolveAll find rest with
        | error => rw [first, others] at outcome; cases outcome
        | ok tail =>
          rw [first, others] at outcome
          cases outcome
          exact .cons (resolve_eq_ok_iff.mp first) (ih.mp others)
    · rintro (_ | ⟨head, tail⟩)
      rw [resolve_eq_ok_iff.mpr head, ih.mpr tail]
      rfl

/-- A behaviour is resolved to one that is the same up to the states that were found for its own. -/
theorem Behavior.resolve_eq_ok_iff {behavior : Behavior State} {resolved : Behavior One} :
    behavior.resolve find = .ok resolved ↔
      Behavior.Alike (fun state found => find state = .ok found) behavior resolved := by
  cases behavior with
  | emit | emitAndPop | delegate =>
    constructor
    · rintro ⟨⟩
      constructor
    · rintro ⟨⟩
      rfl
  | emitAndPush kind state =>
    constructor
    · intro outcome
      obtain ⟨found, same, rfl⟩ := exists_of_map_eq_ok outcome
      exact .emitAndPush kind same
    · rintro ⟨⟩
      rename_i found same
      exact congrArg (Except.map (Behavior.emitAndPush kind)) same
  | composite actions =>
    constructor
    · intro outcome
      obtain ⟨found, same, rfl⟩ := exists_of_map_eq_ok outcome
      exact .composite (Action.resolveAll_eq_ok_iff.mp same)
    · rintro ⟨⟩
      rename_i found each
      exact congrArg (Except.map Behavior.composite) (Action.resolveAll_eq_ok_iff.mpr each)

end Alike

/-! ### The parts of a table -/

/-- The rule is what the source describes: its pattern compiled, the groups that it reads there, and its
states, found among the names. -/
structure Rule.Describes (flags : Pattern.Flags) (names : List String) (source : RuleSource) (rule : Rule) :
    Prop where
  pattern : rule.source = source.pattern
  compiled : Regex.compile? flags source.pattern = some rule.regex
  groups : source.behavior.groups.find? (rule.regex.groupCount < ·) = none
  behavior : Behavior.Alike (fun name id => stateIndex? names name = some id) source.behavior rule.behavior

/-- The rules are the same up to the states that they enter, which are alike. -/
structure Rule.Alike (alike : StateId → StateId → Prop) (rule twin : Rule) : Prop where
  source : rule.source = twin.source
  regex : rule.regex = twin.regex
  behavior : Behavior.Alike alike rule.behavior twin.behavior

/-- What one list of rules describes under two numberings of states is alike. -/
theorem Rule.Describes.meet {flags : Pattern.Flags} {names twinNames : List String}
    {alike : StateId → StateId → Prop} {sources : List RuleSource} {rules twins : List Rule}
    (left : List.Forall₂ (Rule.Describes flags names) sources rules)
    (right : List.Forall₂ (Rule.Describes flags twinNames) sources twins)
    (both : ∀ name id twinId, stateIndex? names name = some id →
      stateIndex? twinNames name = some twinId → alike id twinId) :
    List.Forall₂ (Rule.Alike alike) rules twins :=
  forall₂_meet (fun _ _ _ same also =>
    { source := same.pattern.trans also.pattern.symm
      regex := Option.some.inj (same.compiled.symm.trans also.compiled)
      behavior := same.behavior.meet also.behavior both }) left right

/-- The state is what the source describes. -/
structure State.Describes (flags : Pattern.Flags) (names : List String)
    (source : String × List RuleSource) (state : State) : Prop where
  name : state.name = source.1
  rules : List.Forall₂ (Rule.Describes flags names) source.2 state.rules

/-- States that are called as their sources have the names of these. -/
theorem State.names_eq {related : String × List RuleSource → State → Prop}
    {sources : List (String × List RuleSource)} {states : List State}
    (called : ∀ source state, related source state → state.name = source.1)
    (each : List.Forall₂ related sources states) : states.map State.name = sources.map Prod.fst :=
  List.forall₂_eq_eq_eq ▸ List.forall₂_map_left_iff.mpr
    (List.forall₂_map_right_iff.mpr (each.flip.imp fun state source => called source state))

/-- The rule can be built where the states have these names: its pattern compiles, the groups that it reads
are there, and so are the states that it enters. -/
def RuleSource.Buildable (flags : Pattern.Flags) (names : List String) (source : RuleSource) : Prop :=
  ∃ regex, Regex.compile? flags source.pattern = some regex ∧
    source.behavior.groups.find? (regex.groupCount < ·) = none ∧
    ∀ name ∈ source.behavior.entered, name ∈ names

/-- A name stands at its place. -/
theorem getElem?_of_stateIndex? {names : List String} {name : String} {id : StateId}
    (found : stateIndex? names name = some id) : names[id.index]? = some name := by
  unfold stateIndex? at found
  obtain ⟨place, at_place, rfl⟩ := Option.map_eq_some_iff.mp found
  obtain ⟨within, same, _⟩ := List.findIdx?_eq_some_iff_getElem.mp at_place
  rw [List.getElem?_eq_getElem within, beq_iff_eq.mp same]

/-- A name has a place among names if it is one of them. -/
theorem exists_stateIndex?_iff {names : List String} {name : String} :
    (∃ id, stateIndex? names name = some id) ↔ name ∈ names := by
  constructor
  · rintro ⟨id, found⟩
    exact List.mem_of_getElem? (getElem?_of_stateIndex? found)
  · intro member
    unfold stateIndex?
    obtain ⟨place, at_place⟩ := Option.isSome_iff_exists.mp (List.isSome_idxOf?.mpr member)
    exact ⟨⟨place⟩, at_place ▸ rfl⟩

theorem RuleSource.buildable_iff {flags : Pattern.Flags} {names : List String} {source : RuleSource} :
    source.Buildable flags names ↔ ∃ rule, Rule.Describes flags names source rule := by
  constructor
  · rintro ⟨regex, compiled, groups, entered⟩
    obtain ⟨behavior, same⟩ := Behavior.exists_alike_iff.mpr fun name member =>
      exists_stateIndex?_iff.mpr (entered name member)
    exact ⟨⟨source.pattern, regex, behavior⟩, rfl, compiled, groups, same⟩
  · rintro ⟨rule, _, compiled, groups, same⟩
    exact ⟨rule.regex, compiled, groups, fun name member =>
      exists_stateIndex?_iff.mp (Behavior.exists_alike_iff.mp ⟨_, same⟩ name member)⟩

namespace Table

variable {setting : Setting} {name : String} {index : Nat}

theorem buildRule_eq_ok_iff {source : RuleSource} {rule : Rule} :
    buildRule setting name index source = .ok rule ↔
      Rule.Describes setting.flags setting.names source rule := by
  unfold buildRule
  constructor
  · intro built
    split at built
    · cases built
    · rename_i regex compiled
      split at built
      · cases built
      · rename_i groups
        obtain ⟨behavior, resolved, rfl⟩ := exists_of_map_eq_ok built
        refine ⟨rfl, compiled, groups, (Behavior.resolve_eq_ok_iff.mp resolved).mono ?_⟩
        intro target id found
        split at found
        · rename_i same
          cases found
          exact same
        · cases found
  · rintro ⟨pattern, compiled, groups, behavior⟩
    obtain ⟨ruleSource, regex, ruleBehavior⟩ := rule
    obtain rfl : ruleSource = source.pattern := pattern
    simp only [compiled]
    simp only [groups]
    refine congrArg (Except.map fun behavior => Rule.mk source.pattern regex behavior)
      (Behavior.resolve_eq_ok_iff.mpr (behavior.mono fun target id same => ?_))
    rw [same]

theorem buildRules_eq_ok_iff {sources : List RuleSource} {rules : List Rule} :
    buildRules setting name index sources = .ok rules ↔
      List.Forall₂ (Rule.Describes setting.flags setting.names) sources rules := by
  induction sources generalizing index rules with
  | nil =>
    constructor
    · rintro ⟨⟩
      exact .nil
    · rintro ⟨⟩
      rfl
  | cons source sources ih =>
    unfold buildRules
    constructor
    · intro built
      cases first : buildRule setting name index source with
      | error => rw [first] at built; cases built
      | ok rule =>
        cases others : buildRules setting name (index + 1) sources with
        | error => rw [first, others] at built; cases built
        | ok rest =>
          rw [first, others] at built
          cases built
          exact .cons (buildRule_eq_ok_iff.mp first) (ih.mp others)
    · rintro (_ | ⟨first, others⟩)
      rw [buildRule_eq_ok_iff.mpr first, ih.mpr others]
      rfl

theorem buildStates_eq_ok_iff {sources : List (String × List RuleSource)} {states : List State} :
    buildStates setting sources = .ok states ↔
      List.Forall₂ (State.Describes setting.flags setting.names) sources states := by
  induction sources generalizing states with
  | nil =>
    constructor
    · rintro ⟨⟩
      exact .nil
    · rintro ⟨⟩
      rfl
  | cons source sources ih =>
    obtain ⟨called, ruleSources⟩ := source
    unfold buildStates
    constructor
    · intro built
      cases first : buildRules setting called 0 ruleSources with
      | error => rw [first] at built; cases built
      | ok rules =>
        cases others : buildStates setting sources with
        | error => rw [first, others] at built; cases built
        | ok rest =>
          rw [first, others] at built
          cases built
          exact .cons ⟨rfl, buildRules_eq_ok_iff.mp first⟩ (ih.mp others)
    · intro described
      cases described with
      | @cons _ state _ rest first others =>
        obtain ⟨stateName, rules⟩ := state
        obtain ⟨rfl, first⟩ := first
        rw [buildRules_eq_ok_iff.mpr first, ih.mpr others]
        rfl

/-! ### The table -/

theorem state_eq_getElem {table : Table} {id : StateId} (within : id.index < table.states.length) :
    table.state id = table.states[id.index] := by
  unfold Table.state
  rw [List.getD_eq_getElem?_getD, List.getElem?_eq_getElem within]
  rfl

/-- No name occurs twice or among those seen before exactly if none is given as repeated. -/
theorem firstRepeated?_eq_none_iff {seen names : List String} :
    firstRepeated? seen names = none ↔ names.Nodup ∧ ∀ name ∈ names, name ∉ seen := by
  refine ⟨nodup_of_firstRepeated?, ?_⟩
  rintro ⟨distinct, fresh⟩
  induction names generalizing seen with
  | nil => rfl
  | cons name rest ih =>
    obtain ⟨once, distinct⟩ := List.nodup_cons.mp distinct
    have unseen : seen.contains name = false := by simpa using fresh name List.mem_cons_self
    rw [firstRepeated?, unseen]
    refine ih distinct fun other member again => ?_
    rcases List.mem_cons.mp again with rfl | before
    · exact once member
    · exact fresh other (List.mem_cons_of_mem _ member) before

/-- A table is built from a description with distinct names, one of them that of the root state, and is what
each part of the description describes. -/
theorem build_eq_ok_iff {descriptor : Descriptor} {source : TableSource} {table : Table} :
    Table.build descriptor source = .ok table ↔
      (source.states.map Prod.fst).Nodup ∧ table.descriptor = descriptor ∧
        stateIndex? (source.states.map Prod.fst) rootName = some table.root ∧
        List.Forall₂ (State.Describes source.flags (source.states.map Prod.fst)) source.states
          table.states := by
  unfold build
  dsimp only
  constructor
  · intro built
    split at built
    · cases built
    · rename_i none_repeated
      split at built
      · cases built
      · rename_i root at_root
        obtain ⟨states, outcome, rfl⟩ := exists_of_map_eq_ok built
        exact ⟨(firstRepeated?_eq_none_iff.mp none_repeated).1, rfl, at_root,
          buildStates_eq_ok_iff.mp outcome⟩
  · rintro ⟨distinct, rfl, at_root, described⟩
    rw [firstRepeated?_eq_none_iff.mpr ⟨distinct, fun _ _ => List.not_mem_nil⟩, at_root]
    dsimp only
    rw [buildStates_eq_ok_iff.mpr described]
    rfl

/-- A state of a table that was built is what the source of its place describes, and has no rules if there is
no such source. -/
theorem describes_of_build {descriptor : Descriptor} {source : TableSource} {table : Table}
    (built : Table.build descriptor source = .ok table) (id : StateId) :
    match source.states[id.index]? with
    | some described =>
      State.Describes source.flags (source.states.map Prod.fst) described (table.state id)
    | none => (table.state id).rules = [] := by
  obtain ⟨_, _, _, each⟩ := build_eq_ok_iff.mp built
  obtain ⟨lengths, each⟩ := List.forall₂_iff_get.mp each
  by_cases within : id.index < source.states.length
  · rw [List.getElem?_eq_getElem within, state_eq_getElem (lengths ▸ within)]
    exact each id.index within (lengths ▸ within)
  · have outside : table.states[id.index]? = none := List.getElem?_eq_none (by omega)
    rw [List.getElem?_eq_none (by omega), Table.state, List.getD_eq_getElem?_getD, outside]
    rfl

/-- A description can be built if its states have distinct names, one of them that of the root state, and all
its rules can be built. -/
theorem exists_build_iff {descriptor : Descriptor} {source : TableSource} :
    (∃ table, Table.build descriptor source = .ok table) ↔
      (source.states.map Prod.fst).Nodup ∧ rootName ∈ source.states.map Prod.fst ∧
        ∀ state ∈ source.states, ∀ rule ∈ state.2,
          rule.Buildable source.flags (source.states.map Prod.fst) := by
  constructor
  · rintro ⟨table, built⟩
    obtain ⟨distinct, _, at_root, described⟩ := build_eq_ok_iff.mp built
    refine ⟨distinct, exists_stateIndex?_iff.mp ⟨_, at_root⟩, fun state member rule among => ?_⟩
    obtain ⟨_, same⟩ := exists_forall₂_iff.mp ⟨_, described⟩ state member
    exact RuleSource.buildable_iff.mpr (exists_forall₂_iff.mp ⟨_, same.rules⟩ rule among)
  · rintro ⟨distinct, rooted, buildable⟩
    obtain ⟨root, at_root⟩ := exists_stateIndex?_iff.mpr rooted
    obtain ⟨states, described⟩ := exists_forall₂_iff.mpr fun state member => by
      obtain ⟨rules, same⟩ := exists_forall₂_iff.mpr fun rule among =>
        RuleSource.buildable_iff.mp (buildable state member rule among)
      exact ⟨State.mk state.1 rules, (⟨rfl, same⟩ : State.Describes _ _ state _)⟩
    exact ⟨⟨descriptor, states, root⟩, build_eq_ok_iff.mpr ⟨distinct, rfl, at_root, described⟩⟩

end Table

end TableLexer
