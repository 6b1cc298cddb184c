/-
**The order in which states are declared.**

A description may declare its states in another order. The states then have other numbers, on stacks and in
rules, but they keep their names and their rules. So the runs are the same as long as states are seen by
their names, step by step.

* `TableSource.Reordered`, `Table.Renumbers`: what is declared in another order, and what comes of it.
* `exists_build_iff_of_reordered`: in either order there is a table, or in none.
* `renumbers_of_build`: the two tables have the same states under other numbers.
* `declaration_order_is_irrelevant`: what the runs have in common.
-/

import TableLexer.Proofs.Scan.Exchanged
import TableLexer.Proofs.Scan.Registered
import TableLexer.Proofs.Scan.Stacks

namespace TableLexer

open Step

variable {σ : Type}

/-! ### Reordered descriptions -/

/-- The states are declared in another order, each with its rules in their own order. -/
structure TableSource.Reordered (source other : TableSource) : Prop where
  flags : source.flags = other.flags
  states : source.states.Perm other.states

/-- In either order there is a table, or in none. -/
theorem exists_build_iff_of_reordered {source other : TableSource} (reordered : source.Reordered other)
    (descriptor : Descriptor) :
    (∃ table, Table.build descriptor source = .ok table) ↔
      ∃ table, Table.build descriptor other = .ok table := by
  have names : (source.states.map Prod.fst).Perm (other.states.map Prod.fst) := reordered.states.map _
  have buildable (rule : RuleSource) :
      rule.Buildable source.flags (source.states.map Prod.fst) ↔
        rule.Buildable other.flags (other.states.map Prod.fst) := by
    unfold RuleSource.Buildable
    simp only [reordered.flags, names.mem_iff]
  rw [Table.exists_build_iff, Table.exists_build_iff, names.nodup_iff, names.mem_iff]
  simp only [buildable, reordered.states.mem_iff]

/-! ### Renumbered tables -/

/-- The states have the same name. -/
def Table.SameName (table twin : Table) (state twinState : StateId) : Prop :=
  ∃ name, table.stateId? name = some state ∧ twin.stateId? name = some twinState

/-- The tables have the same states, perhaps under other numbers. -/
structure Table.Renumbers (table twin : Table) : Prop where
  language : table.language = twin.language
  root : table.SameName twin table.root twin.root
  name : ∀ {id twinId}, table.SameName twin id twinId → (table.state id).name = (twin.state twinId).name
  rules : ∀ {id twinId}, table.SameName twin id twinId →
    List.Forall₂ (Rule.Alike (table.SameName twin)) (table.state id).rules (twin.state twinId).rules

/-- The state of a name is the one that is described under it. -/
theorem Table.describes_of_stateIndex? {flags : Pattern.Flags} {source : TableSource} {table : Table}
    (described : List.Forall₂ (State.Describes flags (source.states.map Prod.fst)) source.states
      table.states) {name : String} {id : StateId}
    (found : stateIndex? (source.states.map Prod.fst) name = some id) :
    ∃ rules, (name, rules) ∈ source.states ∧
      State.Describes flags (source.states.map Prod.fst) (name, rules) (table.state id) := by
  have at_place := getElem?_of_stateIndex? found
  rw [List.getElem?_map] at at_place
  obtain ⟨⟨_, rules⟩, there, rfl⟩ := Option.map_eq_some_iff.mp at_place
  obtain ⟨within, same⟩ := List.getElem?_eq_some_iff.mp there
  have in_table : id.index < table.states.length := described.length_eq ▸ within
  have here : State.Describes _ _ source.states[id.index] table.states[id.index] :=
    described.get within in_table
  rw [same] at here
  rw [Table.state_eq_getElem in_table]
  exact ⟨rules, List.mem_of_getElem? there, here⟩

theorem Table.stateId?_eq {flags : Pattern.Flags} {names : List String}
    {sources : List (String × List RuleSource)} {table : Table}
    (described : List.Forall₂ (State.Describes flags names) sources table.states) (name : String) :
    table.stateId? name = stateIndex? (sources.map Prod.fst) name := by
  unfold Table.stateId?
  rw [State.names_eq (fun _ _ same => State.Describes.name same) described]

/-- In another order a description gives a table with the same states under other numbers. -/
theorem renumbers_of_build {descriptor : Descriptor} {source other : TableSource}
    (reordered : source.Reordered other) {table twin : Table}
    (built : Table.build descriptor source = .ok table)
    (rebuilt : Table.build descriptor other = .ok twin) : table.Renumbers twin := by
  obtain ⟨distinct, described_by, at_root, described⟩ := Table.build_eq_ok_iff.mp built
  obtain ⟨_, also_by, also_at_root, redescribed⟩ := Table.build_eq_ok_iff.mp rebuilt
  have places := Table.stateId?_eq described
  have twin_places := Table.stateId?_eq redescribed
  have same (id twinId : StateId) (same : table.SameName twin id twinId) :
      ∃ name rules,
        State.Describes source.flags (source.states.map Prod.fst) (name, rules) (table.state id) ∧
        State.Describes source.flags (other.states.map Prod.fst) (name, rules) (twin.state twinId) := by
    obtain ⟨name, found, twin_found⟩ := same
    rw [places] at found
    rw [twin_places] at twin_found
    obtain ⟨rules, member, describes⟩ := Table.describes_of_stateIndex? described found
    obtain ⟨others, among, redescribes⟩ := Table.describes_of_stateIndex? redescribed twin_found
    obtain ⟨_, rfl⟩ : (name, rules) = (name, others) :=
      List.inj_on_of_nodup_map distinct member (reordered.states.mem_iff.mpr among) rfl
    exact ⟨name, rules, describes, reordered.flags ▸ redescribes⟩
  refine ⟨congrArg Descriptor.name (described_by.trans also_by.symm),
    ⟨rootName, places _ ▸ at_root, twin_places _ ▸ also_at_root⟩, fun equal => ?_, fun equal => ?_⟩
  · obtain ⟨name, rules, describes, redescribes⟩ := same _ _ equal
    exact describes.name.trans redescribes.name.symm
  · obtain ⟨name, rules, describes, redescribes⟩ := same _ _ equal
    exact Rule.Describes.meet describes.rules redescribes.rules fun name id twinId found twin_found =>
      ⟨name, places name ▸ found, twin_places name ▸ twin_found⟩

/-! ### Runs of renumbered tables -/

/-- The language is the same, or its description declares the states in another order and can be built. -/
inductive Language.Reordered : Language → Language → Prop
  | unchanged (language : Language) : Reordered language language
  | reordered {language other : Language} (descriptor : language.descriptor = other.descriptor)
      (source : language.source.Reordered other.source) (builds : ∃ table, language.build = .ok table) :
      Reordered language other

/-- The scans stand at the same place, have counted the same, and have the same states on their stacks, by
name. -/
structure Scan.SameByName (table twin : Table) (scan other : Scan) : Prop where
  cursor : scan.cursor = other.cursor
  ahead : scan.ahead = other.ahead
  metrics : scan.metrics = other.metrics
  stack : table.stackNames scan.stack = twin.stackNames other.stack

theorem Table.Renumbers.sameByName {table twin : Table} (same : table.Renumbers twin) {scan other : Scan}
    (alike : Scan.Alike (table.SameName twin) scan other) : Scan.SameByName table twin scan other where
  cursor := alike.cursor
  ahead := alike.ahead
  metrics := alike.metrics
  stack := by
    have names : (scan.stack.top :: scan.stack.below).map (fun id => (table.state id).name) =
        (other.stack.top :: other.stack.below).map fun id => (twin.state id).name :=
      List.forall₂_eq_eq_eq ▸ List.rel_map (fun _ _ equal => same.name equal)
        (List.Forall₂.cons alike.stack.top alike.stack.below)
    unfold Table.stackNames
    rw [List.map_reverse, List.map_reverse, names]

theorem Language.Reordered.built {language other : Language} (reordered : language.Reordered other) :
    SameOutcome Table.Renumbers language.build other.build := by
  cases reordered with
  | unchanged =>
    cases built : language.build with
    | ok table => exact .ok (renumbers_of_build ⟨rfl, .refl _⟩ built built)
    | error error => exact .error error
  | reordered descriptor source builds =>
    obtain ⟨table, built⟩ := builds
    obtain ⟨twin, rebuilt⟩ := (exists_build_iff_of_reordered source language.descriptor).mp ⟨table, built⟩
    have rebuilds : other.build = .ok twin := by
      unfold Language.build
      rw [← descriptor]
      exact rebuilt
    rw [built, rebuilds]
    exact .ok (renumbers_of_build source built rebuilt)

/-- Runs of tables with the same states under other numbers never leave each other. -/
def Exchange.reordered (options : Options) : Exchange options where
  languages := Language.Reordered
  tables := Table.Renumbers
  states := Table.SameName
  leaves _ := False
  descriptor same := by
    cases same with
    | unchanged => rfl
    | reordered descriptor => exact descriptor
  built same := same.built
  language same := same.language
  root same := same.root
  name same equal := same.name equal
  selects text same equal := selectFrom_alike (same.rules equal) _ text 0

/-- The order in which a description declares its states makes no difference. In either order there is a
table, or in none; and where there is, the runs of the two tables end with the same errors, with the same
counters, and emit the same tokens, with all options and sinks. After each operation, the states on the
stacks are the same by name. Languages that texts are handed to may be reordered as well. -/
theorem declaration_order_is_irrelevant {source other : TableSource} (reordered : source.Reordered other)
    (descriptor : Descriptor) :
    ((∃ table, Table.build descriptor source = .ok table) ↔
      ∃ twin, Table.build descriptor other = .ok twin) ∧
    ∀ table twin, Table.build descriptor source = .ok table → Table.build descriptor other = .ok twin →
      ∀ {σ : Type} (registry twinRegistry : Registry) (cache twinCache : TableCache),
        registry.Exchanged Language.Reordered twinRegistry →
        cache.Exchanged Language.Reordered twinCache →
      ∀ (options : Options) (emitter : Emitter σ) (depth base : Nat) (text : List Char) (sink : σ)
        (log twinLog : Array Record),
        let engine : Engine σ := ⟨registry, options, emitter⟩
        let twinEngine : Engine σ := ⟨twinRegistry, options, emitter⟩
        let lexer : Lexer := ⟨table, depth, base⟩
        let twinLexer : Lexer := ⟨twin, depth, base⟩
        let world : World σ := { sink, cache, log }
        let twinWorld : World σ := { sink, cache := twinCache, log := twinLog }
        let run := lexer.drive engine ⟨.start table text, world⟩
        let twinRun := twinLexer.drive twinEngine ⟨.start twin text, twinWorld⟩
        let watched := lexer.drive engine.watched ⟨.start table text, world.watched⟩
        let twinWatched := twinLexer.drive twinEngine.watched ⟨.start twin text, twinWorld.watched⟩
        (ending run).1 = (ending twinRun).1 ∧
          Scan.SameByName table twin (ending run).2 (ending twinRun).2 ∧
          (endOf run).world.sink = (endOf twinRun).world.sink ∧
          (endOf watched).world.sink.taken = (endOf twinWatched).world.sink.taken ∧
        ∀ operations,
          let after := lexer.operate engine operations ⟨.start table text, world⟩
          let twinAfter := twinLexer.operate twinEngine operations ⟨.start twin text, twinWorld⟩
          after.1 = twinAfter.1 ∧ Scan.SameByName table twin after.2.scan twinAfter.2.scan ∧
            after.2.world.sink = twinAfter.2.world.sink := by
  refine ⟨exists_build_iff_of_reordered reordered descriptor, ?_⟩
  intro table twin built rebuilt σ registry twinRegistry cache twinCache registries caches options emitter
    depth base text sink log twinLog engine twinEngine lexer twinLexer world twinWorld run twinRun watched
    twinWatched
  let exchange := Exchange.reordered options
  have tables : table.Renumbers twin := renumbers_of_build reordered built rebuilt
  have lexers : Lexer.Alike exchange.tables lexer twinLexer := ⟨tables, rfl, rfl⟩
  obtain ⟨error, scans, sinks, taken⟩ := exchange.drive_alike registries lexers caches emitter text sink
    log twinLog fun _ _ => id
  refine ⟨error, tables.sameByName scans, sinks, taken, fun operations => ?_⟩
  have runs : (exchange.likeness registries emitter).Runs lexer.table twinLexer.table
      ⟨.start table text, world⟩ ⟨.start twin text, twinWorld⟩ :=
    ⟨Likeness.start_alike tables text, rfl, caches⟩
  obtain ⟨errors, last⟩ := Likeness.operate_alike (fun _ => id) lexers operations runs
  exact ⟨errors, tables.sameByName last.scans, last.worlds.1⟩

/-- Reads digits, each followed by a letter. -/
def Sample.pairs : Language where
  descriptor := { name := "Pairs" }
  source :=
    { states := [(rootName, [⟨"[0-9]", .emitAndPush .literalNumber "letter"⟩]),
        ("letter", [⟨"[a-z]", .emitAndPop .name⟩])] }

/-- The same, with the root state declared last. -/
def Sample.pairsReordered : Language where
  descriptor := { name := "Pairs" }
  source := { states := Sample.pairs.source.states.reverse }

/-- With the root state declared last, the same pairs are read, and the state behind a digit has the same
name. -/
theorem declaration_order_is_irrelevant_of_pairs :
    ∃ table twin, Sample.pairs.build = .ok table ∧ Sample.pairsReordered.build = .ok twin ∧
      table.root ≠ twin.root ∧
      let engine : Engine Collector := .collecting {} {}
      let start (table : Table) : Run Collector := ⟨.start table "1a2b".toList, { sink := {} }⟩
      let run (table : Table) := (⟨table, 0, 0⟩ : Lexer).drive engine (start table)
      let first (table : Table) := ((⟨table, 0, 0⟩ : Lexer).operate engine [.step] (start table)).2
      (ending (run table)).1 = none ∧ (ending (run twin)).1 = none ∧
        (endOf (run table)).world.sink = (endOf (run twin)).world.sink ∧
        table.stackNames (first table).scan.stack = [rootName, "letter"] ∧
        twin.stackNames (first twin).scan.stack = [rootName, "letter"] := by
  have reordered : Sample.pairs.source.Reordered Sample.pairsReordered.source :=
    ⟨rfl, (List.reverse_perm _).symm⟩
  have checked : (Sample.pairs.build.toOption.any fun table =>
      let engine : Engine Collector := .collecting {} {}
      let start : Run Collector := ⟨.start table "1a2b".toList, { sink := {} }⟩
      (ending ((⟨table, 0, 0⟩ : Lexer).drive engine start)).1 == none &&
        table.stackNames ((⟨table, 0, 0⟩ : Lexer).operate engine [.step] start).2.scan.stack ==
          [rootName, "letter"] && table.root == ⟨0⟩) = true := by decide +kernel
  have last : Sample.pairsReordered.build.toOption.all (·.root == ⟨1⟩) = true := by decide +kernel
  cases built : Sample.pairs.build with
  | error => rw [built] at checked; cases checked
  | ok table =>
    obtain ⟨both, alike⟩ := declaration_order_is_irrelevant reordered { name := "Pairs" }
    obtain ⟨twin, rebuilt⟩ := both.mp ⟨table, built⟩
    rw [built] at checked
    rw [show Sample.pairsReordered.build = _ from rebuilt] at last
    obtain ⟨checked, root⟩ := (Bool.and_eq_true _ _).mp checked
    obtain ⟨succeeds, names⟩ := (Bool.and_eq_true _ _).mp checked
    have succeeds := eq_of_beq succeeds
    have names := eq_of_beq names
    have roots : table.root ≠ twin.root := by
      rw [eq_of_beq root, eq_of_beq last]
      decide
    have caches : TableCache.Exchanged Language.Reordered {} {} := .nil
    have registries : Registry.Exchanged Language.Reordered {} {} := .nil
    obtain ⟨error, _, sinks, _, operations⟩ := alike table twin built rebuilt {} {} {} {} registries caches
      {} Collector.emitter 0 0 "1a2b".toList {} #[] #[]
    have first := (operations [.step]).2.1.stack
    exact ⟨table, twin, rfl, rebuilt, roots, succeeds, error.symm.trans succeeds, sinks, names,
      first.symm.trans names⟩

end TableLexer
