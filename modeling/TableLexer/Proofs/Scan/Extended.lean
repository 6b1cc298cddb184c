/-
**Descriptions that are extended.**

Rules may be added behind the rules of a state, and states behind the states. A state then goes on choosing
what it chose, since the first rule that matches more than nothing wins; and states keep their places. So a
strict run that does not stall goes the same way with the extended tables, its own and those that it hands
texts to.

* `TableSource.Extends`, `Table.Extends`: what is extended, and what comes of it.
* `extends_of_build`: an extended description gives an extended table.
* `extension_is_conservative`: what the runs have in common.
-/

import TableLexer.Proofs.Scan.Exchanged

namespace TableLexer

open Step

variable {σ : Type}

/-! ### Extended descriptions -/

/-- The description is extended: rules may follow those of each state, and states may follow the states. -/
structure TableSource.Extends (source longer : TableSource) : Prop where
  flags : longer.flags = source.flags
  states : ∃ first added, longer.states = first ++ added ∧
    List.Forall₂ (fun state extended => extended.1 = state.1 ∧ state.2 <+: extended.2) source.states first

/-- The description of the language is extended, and could be built and still can. -/
structure Language.Extends (language longer : Language) : Prop where
  descriptor : longer.descriptor = language.descriptor
  source : language.source.Extends longer.source
  builds : ∃ table, language.build = .ok table
  still_builds : ∃ table, longer.build = .ok table

theorem Language.exists_build {language : Language} (builds : language.build.toOption.isSome = true) :
    ∃ table, language.build = .ok table := by
  cases built : language.build with
  | error => rw [built] at builds; cases builds
  | ok table => exact ⟨table, rfl⟩

/-! ### Extended tables -/

/-- The state of the table has kept its place. -/
def Table.Keeps (table : Table) (state twinState : StateId) : Prop :=
  state = twinState ∧ state.index < table.states.length

/-- All states of the table have kept their places, and their rules come first. -/
structure Table.Extends (table longer : Table) : Prop where
  language : table.language = longer.language
  root : table.Keeps table.root longer.root
  states : ∀ id, id.index < table.states.length →
    (table.state id).name = (longer.state id).name ∧
    ∃ front added, (longer.state id).rules = front ++ added ∧
      List.Forall₂ (Rule.Alike table.Keeps) (table.state id).rules front

/-- Names keep their places when others are added behind them. -/
theorem stateIndex?_append {names : List String} {name : String} {id : StateId}
    (found : stateIndex? names name = some id) (added : List String) :
    stateIndex? (names ++ added) name = some id := by
  unfold stateIndex? at found ⊢
  obtain ⟨place, at_place, rfl⟩ := Option.map_eq_some_iff.mp found
  have first : (names ++ added).idxOf? name = (names.idxOf? name).or _ := List.findIdx?_append
  rw [first, at_place]
  rfl

/-- Elements that are related to those of two lists come from the one and then from the other. -/
theorem exists_of_forall₂_append {α β : Type} {related : α → β → Prop} {first second : List α}
    {elements : List β} (each : List.Forall₂ related (first ++ second) elements) :
    ∃ front rest, elements = front ++ rest ∧ List.Forall₂ related first front ∧
      List.Forall₂ related second rest :=
  have swapped : List.Forall₂ (flip related) elements (first ++ second) := each.flip
  ⟨_, _, (List.take_append_drop first.length elements).symm,
    (List.forall₂_take_append _ _ _ swapped).flip, (List.forall₂_drop_append _ _ _ swapped).flip⟩

/-- An extended description gives an extended table. -/
theorem extends_of_build {descriptor : Descriptor} {source longer : TableSource}
    (extended : source.Extends longer) {table longerTable : Table}
    (built : Table.build descriptor source = .ok table)
    (rebuilt : Table.build descriptor longer = .ok longerTable) : table.Extends longerTable := by
  obtain ⟨_, described_by, at_root, described⟩ := Table.build_eq_ok_iff.mp built
  obtain ⟨_, also_by, also_at_root, redescribed⟩ := Table.build_eq_ok_iff.mp rebuilt
  obtain ⟨flags, first, added, states, kept⟩ := extended
  have names : longer.states.map Prod.fst = source.states.map Prod.fst ++ added.map Prod.fst := by
    have same : source.states.map Prod.fst = first.map Prod.fst :=
      List.forall₂_eq_eq_eq ▸ List.forall₂_map_left_iff.mpr
        (List.forall₂_map_right_iff.mpr (kept.imp fun state longer both => both.1.symm))
    rw [states, List.map_append, same]
  rw [names] at also_at_root redescribed
  rw [states, flags] at redescribed
  obtain ⟨front, rest, same_states, redescribed, _⟩ := exists_of_forall₂_append redescribed
  have length : source.states.length = table.states.length := described.length_eq
  have keeps (name : String) (id twinId : StateId)
      (found : stateIndex? (source.states.map Prod.fst) name = some id)
      (also : stateIndex? (source.states.map Prod.fst ++ added.map Prod.fst) name = some twinId) :
      table.Keeps id twinId := by
    have within := Table.index_lt_of_stateIndex? found
    rw [List.length_map, length] at within
    rw [stateIndex?_append found] at also
    exact ⟨Option.some.inj also, within⟩
  refine ⟨congrArg Descriptor.name (described_by.trans also_by.symm), keeps _ _ _ at_root also_at_root,
    fun id within => ?_⟩
  have in_source : id.index < source.states.length := length ▸ within
  have in_first : id.index < first.length := kept.length_eq ▸ in_source
  have in_front : id.index < front.length := redescribed.length_eq ▸ in_first
  have in_longer : id.index < longerTable.states.length := by
    rw [same_states, List.length_append]
    omega
  have here : longerTable.state id = front[id.index] := by
    rw [Table.state_eq_getElem in_longer]
    simp only [same_states]
    exact List.getElem_append_left in_front
  obtain ⟨name, rules⟩ : State.Describes _ _ _ _ := described.get in_source within
  obtain ⟨longer_name, longer_rules⟩ : State.Describes _ _ _ _ := redescribed.get in_first in_front
  obtain ⟨same_name, more, more_rules⟩ := kept.get in_source in_first
  simp only [List.get_eq_getElem] at *
  rw [← more_rules] at longer_rules
  obtain ⟨front_rules, added_rules, all, each, _⟩ := exists_of_forall₂_append longer_rules
  rw [Table.state_eq_getElem within, here]
  exact ⟨by rw [name, longer_name, same_name], front_rules, added_rules, all,
    Rule.Describes.meet rules each keeps⟩

/-! ### Extended runs -/

/-- Where a rule is chosen, it is still chosen when others are added behind. -/
theorem selectFrom_append {text : List Char} {index : Nat} {rules : List Rule} {selection : Selection}
    (chosen : selectFrom text index rules = some selection) (added : List Rule) :
    selectFrom text index (rules ++ added) = some selection := by
  induction rules generalizing index with
  | nil => cases chosen
  | cons rule rest ih =>
    rw [selectFrom] at chosen
    rw [List.cons_append, selectFrom]
    split at chosen
    · exact ih chosen
    · split at chosen
      · rename_i empty
        rw [if_pos empty]
        exact ih chosen
      · rename_i longer
        rw [if_neg longer]
        exact chosen

/-- A strict run leaves the one with the extended tables by a stall only. -/
def Exchange.extended {options : Options} (strict : options.stall = .strict) : Exchange options where
  languages := Language.Extends
  tables := Table.Extends
  states table _ := table.Keeps
  leaves error := ∃ offset name, error = .stall offset name
  descriptor same := same.descriptor.symm
  built := by
    intro language longer extended
    obtain ⟨table, built⟩ := extended.builds
    obtain ⟨longerTable, rebuilt⟩ := extended.still_builds
    have described : Table.build language.descriptor longer.source = .ok longerTable :=
      extended.descriptor ▸ rebuilt
    rw [built, rebuilt]
    exact .ok (extends_of_build extended.source built described)
  language same := same.language
  root same := same.root
  name := by
    rintro table longer state _ same ⟨rfl, within⟩
    exact (same.states state within).1
  selects := by
    rintro table longer state _ text same ⟨rfl, within⟩
    obtain ⟨_, front, added, rules, each⟩ := (same.states state within)
    have chosen := selectFrom_alike each False text 0
    unfold State.select
    rw [rules]
    generalize selectFrom text 0 (table.state state).rules = selection,
      twin : selectFrom text 0 front = twinSelection at chosen
    cases chosen with
    | none => exact .differ ⟨strict, fun offset name => ⟨offset, name, rfl⟩⟩ _
    | some index source found behavior =>
      rw [selectFrom_append twin]
      exact .some index source found behavior
    | differ impossible => exact impossible.elim

/-- To add rules behind the rules of states, and states behind the states, changes no strict run that does not
stall, whichever languages are extended so, as long as their tables can still be built: the run with the
extended tables ends in the same way, with the same counters, and emits the same tokens. -/
theorem extension_is_conservative {language longer : Language} (extended : language.Extends longer)
    {table longerTable : Table} (built : language.build = .ok table)
    (rebuilt : longer.build = .ok longerTable) {registry longerRegistry : Registry}
    (registries : registry.Exchanged Language.Extends longerRegistry) {cache longerCache : TableCache}
    (caches : cache.Exchanged Language.Extends longerCache) {options : Options}
    (strict : options.stall = .strict) (emitter : Emitter σ) (depth base : Nat) (text : List Char)
    (sink : σ) (log longerLog : Array Record) :
    let engine : Engine σ := ⟨registry, options, emitter⟩
    let longerEngine : Engine σ := ⟨longerRegistry, options, emitter⟩
    let world : World σ := { sink, cache, log }
    let longerWorld : World σ := { sink, cache := longerCache, log := longerLog }
    let run := (⟨table, depth, base⟩ : Lexer).drive engine ⟨.start table text, world⟩
    let longerRun := (⟨longerTable, depth, base⟩ : Lexer).drive longerEngine
      ⟨.start longerTable text, longerWorld⟩
    let watched := (⟨table, depth, base⟩ : Lexer).drive engine.watched ⟨.start table text, world.watched⟩
    let longerWatched := (⟨longerTable, depth, base⟩ : Lexer).drive longerEngine.watched
      ⟨.start longerTable text, longerWorld.watched⟩
    (∀ offset name, (ending run).1 ≠ some (.stall offset name)) →
      ending longerRun = ending run ∧ (endOf longerRun).world.sink = (endOf run).world.sink ∧
        (endOf longerWatched).world.sink.taken = (endOf watched).world.sink.taken := by
  intro engine longerEngine world longerWorld run longerRun watched longerWatched unstalled
  let exchange := Exchange.extended strict
  have tables : table.Extends longerTable :=
    extends_of_build extended.source built (extended.descriptor ▸ rebuilt)
  have lexers : Lexer.Alike exchange.tables ⟨table, depth, base⟩ ⟨longerTable, depth, base⟩ :=
    ⟨tables, rfl, rfl⟩
  have stays (error : ScanError) (ends : (ending run).1 = some error) : ¬ exchange.leaves error := by
    rintro ⟨offset, name, rfl⟩
    exact unstalled offset name ends
  obtain ⟨error, scans, sinks, taken⟩ := exchange.drive_alike registries lexers caches emitter text sink
    log longerLog stays
  have scan : (ending run).2 = (ending longerRun).2 := scans.eq fun _ _ => And.left
  exact ⟨(Prod.ext error scan).symm, sinks.symm, taken.symm⟩

/-- Reads the letters `a` and `b`, and as its last rule any word, behind which it reads one character more. -/
def Sample.longerLetters : Language where
  descriptor := { name := "Letters" }
  source :=
    { states := [
        (rootName, [⟨"[ab]", .emit .name⟩, ⟨"[a-z]+", .emitAndPush .keyword "more"⟩]),
        ("more", [⟨".", .emitAndPop .error⟩])] }

/-- The registry of the two languages, the second of them extended. -/
def Sample.longerRegistry : Registry where
  languages := [Sample.numbered, Sample.longerLetters]

/-- The letters are handed on to the extended language, whose last rule would match more of them. -/
theorem extension_is_conservative_of_sample :
    ∃ table, Sample.numbered.build = .ok table ∧
      let engine : Engine Collector := .collecting Sample.registry {}
      let longerEngine : Engine Collector := .collecting Sample.longerRegistry {}
      let run := (⟨table, 0, 0⟩ : Lexer).drive engine ⟨.start table "12ab".toList, { sink := {} }⟩
      let longerRun := (⟨table, 0, 0⟩ : Lexer).drive longerEngine
        ⟨.start table "12ab".toList, { sink := {} }⟩
      (ending run).1 = none ∧ ending longerRun = ending run ∧
        (endOf longerRun).world.sink = (endOf run).world.sink := by
  obtain ⟨table, built⟩ : ∃ table, Sample.numbered.build = .ok table :=
    Language.exists_build (by decide +kernel)
  have numbered : Sample.numbered.Extends Sample.numbered :=
    { descriptor := rfl
      source := ⟨rfl, Sample.numbered.source.states, [], rfl,
        List.forall₂_same.mpr fun _ _ => ⟨rfl, List.prefix_rfl⟩⟩
      builds := ⟨table, built⟩
      still_builds := ⟨table, built⟩ }
  have letters : Sample.letters.Extends Sample.longerLetters :=
    { descriptor := rfl
      source := ⟨rfl, Sample.longerLetters.source.states.take 1,
        Sample.longerLetters.source.states.drop 1, rfl, .cons ⟨rfl, _, rfl⟩ .nil⟩
      builds := Language.exists_build (by decide +kernel)
      still_builds := Language.exists_build (by decide +kernel) }
  have registries : Sample.registry.Exchanged Language.Extends Sample.longerRegistry :=
    .cons numbered (.cons letters .nil)
  have succeeds : (Sample.numbered.build.toOption.map fun table =>
      (ending ((⟨table, 0, 0⟩ : Lexer).drive (.collecting Sample.registry {})
        ⟨.start table "12ab".toList, { sink := {} }⟩)).1) = some none := by decide +kernel
  rw [built] at succeeds
  have succeeds := Option.some.inj succeeds
  have caches : TableCache.Exchanged Language.Extends {} {} := .nil
  have strict : ({} : Options).stall = .strict := rfl
  obtain ⟨same, sink, _⟩ := extension_is_conservative numbered built built registries caches strict
    Collector.emitter 0 0 "12ab".toList {} #[] #[]
    fun offset name stalls => nomatch succeeds.symm.trans stalls
  exact ⟨table, built, succeeds, same, sink⟩

end TableLexer
