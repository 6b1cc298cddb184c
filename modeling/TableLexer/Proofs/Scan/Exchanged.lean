/-
**Languages exchanged for others.**

Each language of a registry is exchanged for another one, with the same facts but another description. Where
the tables that are built of the two are alike, so are the runs with the two registries, whichever tables they
come to build or find built.

* `Registry.Exchanged`, `TableCache.Exchanged`: registries and caches of exchanged languages.
* `TableCache.Exchanged.table`: names are served tables that are alike.
* `Exchange.likeness`: the runs are alike.
* `Exchange.drive_alike`, `Exchange.operate_alike`: how they end, and what tokens they emit.
-/

import TableLexer.Proofs.Language.Memo
import TableLexer.Proofs.Scan.Imitated
import TableLexer.Proofs.Scan.Watched

namespace TableLexer

open Step

variable {σ : Type}

/-! ### Registries and caches -/

section Exchanged

variable (languages : Language → Language → Prop)

/-- The languages of the one registry are exchanged for those of the other, one by one. -/
def Registry.Exchanged (registry twin : Registry) : Prop :=
  List.Forall₂ languages registry.languages twin.languages

/-- The slots hold, under the same key, what a language and the one that it is exchanged for describe. -/
structure Slot.Exchanged (slot twin : Slot) : Prop where
  key : slot.key = twin.key
  languages : languages slot.language twin.language
  honest : slot.Honest
  twinHonest : twin.Honest

/-- The caches hold, under the same keys, what languages and those that they are exchanged for describe. -/
def TableCache.Exchanged (cache twin : TableCache) : Prop :=
  List.Forall₂ (Slot.Exchanged languages) cache.slots twin.slots

end Exchanged

/-- Where related elements are alike for what is searched, the first ones found are related. -/
theorem find?_related {α β : Type} {related : α → β → Prop} {p : α → Bool} {q : β → Bool}
    (alike : ∀ a b, related a b → p a = q b) {elements : List α} {others : List β}
    (each : List.Forall₂ related elements others) :
    Option.Rel related (elements.find? p) (others.find? q) := by
  induction each with
  | nil => exact .none
  | cons same _ ih =>
    rw [List.find?_cons, List.find?_cons, alike _ _ same]
    split
    · exact .some same
    · exact ih

/-- How languages may be exchanged for others, for runs with the options to be alike. -/
structure Exchange (options : Options) where
  /-- The languages that may be exchanged for each other. -/
  languages : Language → Language → Prop
  /-- The tables that are alike. -/
  tables : Table → Table → Prop
  /-- The states that are alike, of tables that are. -/
  states : Table → Table → StateId → StateId → Prop
  /-- The errors with which a run may leave the other. -/
  leaves : ScanError → Prop
  descriptor : ∀ {language twin}, languages language twin → language.descriptor = twin.descriptor
  built : ∀ {language twin}, languages language twin → SameOutcome tables language.build twin.build
  language : ∀ {table twin}, tables table twin → table.language = twin.language
  root : ∀ {table twin}, tables table twin → states table twin table.root twin.root
  name : ∀ {table twin state twinState}, tables table twin → states table twin state twinState →
    (table.state state).name = (twin.state twinState).name
  selects : ∀ {table twin state twinState} (text : List Char), tables table twin →
    states table twin state twinState →
    Selection.Alike (states table twin)
      (options.stall = .strict ∧ ∀ offset name, leaves (.stall offset name))
      ((table.state state).select text) ((twin.state twinState).select text)

namespace Exchange

variable {options : Options} (exchange : Exchange options) {registry twinRegistry : Registry}
  {cache twinCache : TableCache}

theorem outcome_of_slots {slot twin : Slot} (same : Slot.Exchanged exchange.languages slot twin) :
    SameOutcome exchange.tables (slot.outcome.map SharedTable.table)
      (twin.outcome.map SharedTable.table) := by
  rw [show slot.outcome.map SharedTable.table = _ from same.honest,
    show twin.outcome.map SharedTable.table = _ from same.twinHonest]
  exact exchange.built same.languages

/-- Under a key, tables that are alike are kept or built, and the caches stay so. -/
theorem getOrBuild (caches : TableCache.Exchanged exchange.languages cache twinCache)
    {language twin : Language} (same : exchange.languages language twin) (key : String) :
    SameOutcome exchange.tables
        ((cache.getOrBuild key language).outcome.map SharedTable.table)
        ((twinCache.getOrBuild key twin).outcome.map SharedTable.table) ∧
      TableCache.Exchanged exchange.languages (cache.getOrBuild key language).cache
        (twinCache.getOrBuild key twin).cache := by
  have kept : Option.Rel (Slot.Exchanged exchange.languages) (cache.slot? key) (twinCache.slot? key) :=
    find?_related (fun slot twin same => by rw [same.key]) caches
  generalize found : cache.slot? key = slot, twinFound : twinCache.slot? key = twinSlot at kept
  cases kept with
  | some same =>
    rw [TableCache.getOrBuild_of_some language found, TableCache.getOrBuild_of_some twin twinFound]
    exact ⟨exchange.outcome_of_slots same, caches⟩
  | none =>
    rw [TableCache.getOrBuild_of_none language found, TableCache.getOrBuild_of_none twin twinFound]
    have slots : Slot.Exchanged exchange.languages (cache.newSlot key language)
        (twinCache.newSlot key twin) :=
      ⟨rfl, same, TableCache.honest_newSlot _ _ _, TableCache.honest_newSlot _ _ _⟩
    exact ⟨exchange.outcome_of_slots slots, List.rel_append caches (.cons slots .nil)⟩

/-- A name is served tables that are alike, and the caches stay so. -/
theorem table (registries : Registry.Exchanged exchange.languages registry twinRegistry)
    (caches : TableCache.Exchanged exchange.languages cache twinCache) (name : String) :
    SameOutcome exchange.tables ((registry.table cache name).outcome.map SharedTable.table)
        ((twinRegistry.table twinCache name).outcome.map SharedTable.table) ∧
      TableCache.Exchanged exchange.languages (registry.table cache name).cache
        (twinRegistry.table twinCache name).cache := by
  have answers : Option.Rel exchange.languages (registry.find? name) (twinRegistry.find? name) :=
    find?_related (fun language twin same => by rw [exchange.descriptor same]) registries
  unfold Registry.table
  generalize registry.find? name = language, twinRegistry.find? name = twin at answers
  cases answers with
  | none => exact ⟨.error _, caches⟩
  | @some language twin same =>
    have named : language.name = twin.name := congrArg Descriptor.name (exchange.descriptor same)
    dsimp only
    rw [← named]
    exact exchange.getOrBuild caches same language.name

/-- With registries of exchanged languages, the runs of tables that are alike are. -/
def likeness (registries : Registry.Exchanged exchange.languages registry twinRegistry)
    (emitter : Emitter σ) :
    Likeness ⟨registry, options, emitter⟩ ⟨twinRegistry, options, emitter⟩ where
  tables := exchange.tables
  states := exchange.states
  worlds world twin :=
    world.sink = twin.sink ∧ TableCache.Exchanged exchange.languages world.cache twin.cache
  leaves := exchange.leaves
  limit := rfl
  policy := rfl
  language := exchange.language
  root := exchange.root
  name := exchange.name
  selects := exchange.selects
  notes _ _ worlds := worlds
  tells _ _ worlds := worlds
  looksUp := by
    rintro world twin name ⟨sink, caches⟩
    obtain ⟨outcome, after⟩ := exchange.table registries caches name
    exact ⟨outcome, sink, after⟩
  offers := by
    rintro world twin token ⟨sink, caches⟩
    dsimp only
    rw [sink]
    cases emitter.emit token twin.sink with
    | ok _ after => exact ⟨rfl, caches⟩
    | error message after => exact ⟨rfl, rfl, caches⟩

/-- Runs with exchanged languages end alike, and emit the same tokens, unless the one leaves the other. -/
theorem drive_alike (registries : Registry.Exchanged exchange.languages registry twinRegistry)
    {lexer twinLexer : Lexer} (lexers : Lexer.Alike exchange.tables lexer twinLexer)
    (caches : TableCache.Exchanged exchange.languages cache twinCache) (emitter : Emitter σ)
    (text : List Char) (sink : σ) (log twinLog : Array Record) :
    let engine : Engine σ := ⟨registry, options, emitter⟩
    let twinEngine : Engine σ := ⟨twinRegistry, options, emitter⟩
    let world : World σ := { sink, cache, log }
    let twinWorld : World σ := { sink, cache := twinCache, log := twinLog }
    let run := lexer.drive engine ⟨.start lexer.table text, world⟩
    let twinRun := twinLexer.drive twinEngine ⟨.start twinLexer.table text, twinWorld⟩
    let watched := lexer.drive engine.watched ⟨.start lexer.table text, world.watched⟩
    let twinWatched := twinLexer.drive twinEngine.watched ⟨.start twinLexer.table text, twinWorld.watched⟩
    (∀ error, (ending run).1 = some error → ¬ exchange.leaves error) →
      (ending run).1 = (ending twinRun).1 ∧
        Scan.Alike (exchange.states lexer.table twinLexer.table) (ending run).2 (ending twinRun).2 ∧
        (endOf run).world.sink = (endOf twinRun).world.sink ∧
        (endOf watched).world.sink.taken = (endOf twinWatched).world.sink.taken := by
  intro engine twinEngine world twinWorld run twinRun watched twinWatched stays
  have ends : (exchange.likeness registries emitter).Ends lexer.table twinLexer.table Eq run twinRun :=
    Likeness.ends_drive lexers text ⟨rfl, caches⟩
  have watched_ends : (exchange.likeness registries emitter.watched).Ends lexer.table twinLexer.table Eq
      watched twinWatched := Likeness.ends_drive lexers text ⟨rfl, caches⟩
  have same : ending watched = ending run := (watched_drive engine lexer text world).1
  obtain ⟨error, scans, sink, _⟩ := ends.same stays
  obtain ⟨_, _, watched_sink, _⟩ := watched_ends.same (same ▸ stays)
  rw [scan_ending, scan_ending]
  exact ⟨error, scans, sink, congrArg Watched.taken watched_sink⟩

end Exchange

end TableLexer
