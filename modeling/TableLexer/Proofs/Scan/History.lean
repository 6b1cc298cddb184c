/-
**What was done with a registry before.**

The tables of a registry are built on first use, by look-ups and in the middle of runs. Where the languages
have different canonical names, what was built when makes no difference: a name is served what the language
that it finds describes, and so a run goes as it would with a registry that is new.

* `Registry.History`: look-ups and operations on scans, one after another, each as it may end.
* `TableCache.Sound`: what they keep of the tables, `sound_of_history`.
* `table_of_sound`: a name is served what its language describes.
* `Lockstep.renewed`: two runs with sound caches go in lockstep.
* `runs_ignore_history`: a run goes as with a new registry, and no table is built twice.
-/

import Mathlib.Data.List.Nodup
import TableLexer.Proofs.Scan.Counters
import TableLexer.Proofs.Scan.Watched

namespace TableLexer

open Step

variable {σ : Type} {registry : Registry}

/-! ### Caches of a registry -/

/-- What a cache is like that only serves the registry: it keeps, under their canonical names, what
languages of the registry describe, each once. -/
structure TableCache.Sound (registry : Registry) (cache : TableCache) : Prop where
  registered : ∀ slot ∈ cache.slots, slot.language ∈ registry.languages
  named : ∀ slot ∈ cache.slots, slot.key = slot.language.name
  honest : ∀ slot ∈ cache.slots, slot.Honest
  once : (cache.slots.map Slot.key).Nodup

namespace TableCache

theorem sound_empty : Sound registry {} where
  registered := List.forall_mem_nil _
  named := List.forall_mem_nil _
  honest := List.forall_mem_nil _
  once := List.nodup_nil

variable {cache : TableCache}

theorem Sound.getOrBuild (sound : cache.Sound registry) {language : Language}
    (registered : language ∈ registry.languages) :
    (cache.getOrBuild language.name language).cache.Sound registry := by
  cases kept : cache.slot? language.name with
  | some slot =>
    rw [getOrBuild_of_some language kept]
    exact sound
  | none =>
    rw [getOrBuild_of_none language kept]
    have unkept : language.name ∉ cache.slots.map Slot.key := by
      intro member
      obtain ⟨slot, earlier, key⟩ := List.mem_map.mp member
      exact List.find?_eq_none.mp kept slot earlier (beq_iff_eq.mpr key)
    exact
      { registered := List.forall_mem_append.mpr ⟨sound.registered, List.forall_mem_singleton.mpr registered⟩
        named := List.forall_mem_append.mpr ⟨sound.named, List.forall_mem_singleton.mpr rfl⟩
        honest := List.forall_mem_append.mpr
          ⟨sound.honest, List.forall_mem_singleton.mpr (honest_newSlot _ _ _)⟩
        once := by
          rw [List.map_append]
          exact List.nodup_append_comm.mp (List.nodup_cons.mpr ⟨unkept, sound.once⟩) }

/-- A look-up keeps a cache sound. -/
theorem Sound.table (sound : cache.Sound registry) (name : String) :
    (registry.table cache name).cache.Sound registry := by
  unfold Registry.table
  cases found : registry.find? name with
  | none => exact sound
  | some language => exact sound.getOrBuild (List.mem_of_find?_eq_some found)

end TableCache

/-- What the language that the name finds describes. -/
def Registry.described (registry : Registry) (name : String) : Except BuildError Table :=
  match registry.find? name with
  | some language => language.build
  | none => .error (.unknownLanguage name)

/-- Where the canonical names differ, a name is served what its language describes. -/
theorem table_of_sound (distinct : (registry.languages.map Language.name).Nodup) {cache : TableCache}
    (sound : cache.Sound registry) (name : String) :
    (registry.table cache name).outcome.map SharedTable.table = registry.described name := by
  unfold Registry.table Registry.described
  cases found : registry.find? name with
  | none => rfl
  | some language =>
    dsimp only
    have registered := List.mem_of_find?_eq_some found
    have later := sound.getOrBuild registered
    obtain ⟨slot, kept, outcome⟩ := cache.exists_of_getOrBuild language.name language
    have member := List.mem_of_find?_eq_some kept
    have key : slot.key = language.name := beq_iff_eq.mp (List.find?_some kept :)
    have same : slot.language = language :=
      List.inj_on_of_nodup_map distinct (later.registered slot member) registered
        ((later.named slot member).symm.trans key)
    rw [outcome, ← same]
    exact later.honest slot member

/-! ### Histories -/

/-- What may have been done with a registry since it was new, until it has the given cache and the log has
the given records: look-ups, and operations on scans of any lexers, with any options and sinks, whether
they succeeded or failed. To ask what is built changes nothing. -/
inductive Registry.History (registry : Registry) : TableCache → Array Record → Prop where
  | created : History registry {} #[]
  | lookUp {cache : TableCache} {log : Array Record} (earlier : History registry cache log)
      (name : String) :
      History registry (registry.table cache name).cache
        (log ++ (registry.table cache name).records)
  | operation {cache : TableCache} {log : Array Record} (earlier : History registry cache log)
      {σ : Type} (options : Options) (emitter : Emitter σ) (lexer : Lexer) (scan : Scan) (sink : σ)
      (operation : Operation) :
      History registry
        (endOf (operation.act ⟨registry, options, emitter⟩ lexer ⟨scan, sink, cache, log⟩)).world.cache
        (endOf (operation.act ⟨registry, options, emitter⟩ lexer ⟨scan, sink, cache, log⟩)).world.log

theorem carries_act {engine : Engine σ} {drift : World σ → World σ → Prop}
    (drifts : World.Drift engine drift) (operation : Operation) (lexer : Lexer) :
    Carries drift (operation.act engine lexer) := by
  cases operation with
  | step => exact carries_lexerStep drifts lexer
  | drive => exact carries_drive drifts lexer

namespace Registry.History

variable {cache : TableCache} {log : Array Record}

/-- Whatever was done, the cache is sound. -/
theorem sound (history : registry.History cache log) : cache.Sound registry := by
  induction history with
  | created => exact TableCache.sound_empty
  | lookUp _ name ih => exact ih.table name
  | @operation _ _ _ σ options emitter lexer scan sink operation ih =>
    have drifts : World.Drift (σ := σ) ⟨registry, options, emitter⟩ fun before after =>
        before.cache.Sound registry → after.cache.Sound registry :=
      World.drift_of_table _ fun name earlier => earlier.table name
    exact carries_act drifts operation lexer _ ih

/-- Whatever was done, the log tells of each table that was built, in order. -/
theorem told (history : registry.History cache log) :
    log.toList.filterMap Record.built? = cache.slots.map Slot.key := by
  induction history with
  | created => rfl
  | @lookUp cache log _ name ih =>
    rw [built_of_table, ← ih, ← List.filterMap_append]
    exact congrArg _ Array.toList_appendList
  | @operation cache log _ _ options emitter lexer scan sink operation ih =>
    have accounts := recounts_act ⟨registry, options, emitter⟩ lexer operation ⟨scan, sink, cache, log⟩
    rw [accounts.built, accounts.log, List.filterMap_append, ih]

end Registry.History

/-! ### Runs -/

/-- Where the canonical names differ, runs with sound caches go in lockstep. -/
def Lockstep.renewed (engine : Engine σ) (distinct : (engine.registry.languages.map Language.name).Nodup) :
    Lockstep engine engine where
  deeper := 0
  further := 0
  member _ := True
  placed _ _ := True
  worlds world twin := world.sink = twin.sink ∧ world.cache.Sound engine.registry ∧
    twin.cache.Sound engine.registry
  parted _ _ _ := False
  drift _ _ := True
  placement := placement_trivial
  drifts := World.drift_trivial _
  keeps parted _ := parted
  limit := engine.maxDepth_le
  exceeds _ fewer := absurd fewer (Nat.lt_irrefl _)
  notes _ alike := alike
  looksUp := by
    rintro world twin name ⟨sink, sound, twinSound⟩
    have same : (engine.registry.table world.cache name).outcome.map SharedTable.table =
        (engine.registry.table twin.cache name).outcome.map SharedTable.table :=
      (table_of_sound distinct sound name).trans (table_of_sound distinct twinSound name).symm
    exact ⟨same, ⟨sink, sound.table name, twinSound.table name⟩, fun _ _ => trivial⟩
  offers := by
    rintro world twin token ⟨sink, sounds⟩
    rw [sink]
    cases engine.emitter.emit token twin.sink with
    | ok _ after => exact ⟨rfl, sounds⟩
    | error message after => exact ⟨rfl, rfl, sounds⟩
  intends _ _ _ _ _ := .inl (Lexer.intent_moved rfl rfl)

/-- Runs of the lexer on the text in the two worlds end in the same way, with the same counters, and leave
the same in the sink, which takes the same tokens. -/
structure Engine.SameRun (engine : Engine σ) (lexer : Lexer) (text : List Char) (late fresh : World σ) :
    Prop where
  ending : ending (lexer.drive engine ⟨.start lexer.table text, late⟩) =
    ending (lexer.drive engine ⟨.start lexer.table text, fresh⟩)
  sink : (endOf (lexer.drive engine ⟨.start lexer.table text, late⟩)).world.sink =
    (endOf (lexer.drive engine ⟨.start lexer.table text, fresh⟩)).world.sink
  taken : (endOf (lexer.drive engine.watched ⟨.start lexer.table text, late.watched⟩)).world.sink.taken =
    (endOf (lexer.drive engine.watched ⟨.start lexer.table text, fresh.watched⟩)).world.sink.taken

/-- Where the canonical names differ, runs with sound caches are the same. -/
theorem sameRun_of_sound {engine : Engine σ}
    (distinct : (engine.registry.languages.map Language.name).Nodup) (lexer : Lexer) (text : List Char)
    {late fresh : World σ} (sink : late.sink = fresh.sink) (sound : late.cache.Sound engine.registry)
    (freshSound : fresh.cache.Sound engine.registry) : engine.SameRun lexer text late fresh := by
  have same {τ : Type} (engine : Engine τ) (distinct : (engine.registry.languages.map Language.name).Nodup)
      {late fresh : World τ} (alike : (Lockstep.renewed engine distinct).worlds late fresh) :
      ending (lexer.drive engine ⟨.start lexer.table text, late⟩) =
          ending (lexer.drive engine ⟨.start lexer.table text, fresh⟩) ∧
        (endOf (lexer.drive engine ⟨.start lexer.table text, late⟩)).world.sink =
          (endOf (lexer.drive engine ⟨.start lexer.table text, fresh⟩)).world.sink := by
    let steps := Lockstep.renewed engine distinct
    have abreast : steps.Abreast (lexer.drive engine ⟨.start lexer.table text, late⟩)
        (lexer.drive engine ⟨.start lexer.table text, fresh⟩) :=
      @Lockstep.abreast_drive _ _ _ _ steps lexer trivial text trivial _ _ alike
    obtain ⟨ends, sinks, _⟩ := abreast.ending_eq rfl rfl id
    exact ⟨ends, sinks⟩
  obtain ⟨ends, sinks⟩ := same engine distinct ⟨sink, sound, freshSound⟩
  have alike : (Lockstep.renewed engine.watched distinct).worlds late.watched fresh.watched :=
    ⟨congrArg (fun sink => ({ sink } : Watched σ)) sink, sound, freshSound⟩
  obtain ⟨_, watched⟩ := same engine.watched distinct alike
  exact ⟨ends, sinks, congrArg Watched.taken watched⟩

/-- What a run answers follows from its end. -/
theorem Engine.SameRun.run {engine : Engine σ} {lexer : Lexer} {text : List Char} {late fresh : World σ}
    (same : engine.SameRun lexer text late fresh) :
    (lexer.run engine text late).result = (lexer.run engine text fresh).result ∧
      (lexer.run engine text late).world.sink = (lexer.run engine text fresh).world.sink := by
  obtain ⟨ends, sinks, _⟩ := same
  unfold Lexer.run
  generalize lexer.drive engine ⟨.start lexer.table text, late⟩ = result,
    lexer.drive engine ⟨.start lexer.table text, fresh⟩ = freshResult at ends sinks
  cases result with
  | ok _ run =>
    cases freshResult with
    | ok _ freshRun =>
      have scan : run.scan = freshRun.scan := congrArg Prod.snd ends
      exact ⟨congrArg (fun scan => Except.ok scan.metrics) scan, sinks⟩
    | error => cases congrArg Prod.fst ends
  | error error run =>
    cases freshResult with
    | ok => cases congrArg Prod.fst ends
    | error freshError freshRun =>
      exact ⟨congrArg Except.error (Option.some.inj (congrArg Prod.fst ends)), sinks⟩

/-- A text is tokenized in the same way where its language is served the same table and the runs are the
same. -/
theorem Engine.tokenize_congr {engine : Engine σ} {name : String} {text : List Char} {late fresh : World σ}
    (served : (late.table engine.registry name).1.map SharedTable.table =
      (fresh.table engine.registry name).1.map SharedTable.table)
    (kept : (late.table engine.registry name).2.sink = (fresh.table engine.registry name).2.sink)
    (runs : ∀ lexer, engine.SameRun lexer text (late.table engine.registry name).2
      (fresh.table engine.registry name).2) :
    (engine.tokenize name text late).result = (engine.tokenize name text fresh).result ∧
      (engine.tokenize name text late).world.sink = (engine.tokenize name text fresh).world.sink := by
  unfold Engine.tokenize
  generalize late.table engine.registry name = lateTable, fresh.table engine.registry name = freshTable
    at served kept runs
  obtain ⟨_ | shared, lateWorld⟩ := lateTable <;> obtain ⟨_ | freshShared, freshWorld⟩ := freshTable
  · cases served
    exact ⟨rfl, kept⟩
  · cases served
  · cases served
  · have same : shared.table = freshShared.table := Except.ok.inj served
    dsimp only
    rw [same]
    exact (runs _).run

/-- A language is built at most once. -/
theorem count_building_le_one {cache : TableCache} {log : Array Record}
    (history : registry.History cache log) (language : Language) :
    log.toList.count (.building language.name) ≤ 1 ∧
      cache.slots.countP (·.language == language) ≤ 1 := by
  have once := List.nodup_iff_count_le_one.mp history.sound.once language.name
  constructor
  · rw [← history.told] at once
    refine Nat.le_trans (Nat.le_of_eq ?_) once
    rw [List.count_filterMap, List.count_eq_countP]
    refine List.countP_congr fun record _ => ?_
    cases record <;> simp [Record.built?]
  · rw [List.count_eq_countP, List.countP_map] at once
    refine Nat.le_trans (List.countP_mono_left fun slot member same => ?_) once
    have named := history.sound.named slot member
    rw [eq_of_beq same] at named
    exact beq_iff_eq.mpr named

/-- If the languages of a registry have different canonical names, a run goes as with a new registry,
whatever was done before: the language is served the same table, and the run ends in the same way, with
the same counters and tokens, under all options and with all sinks. Over all that was done, the description
of each language is built at most once, also if that fails. -/
theorem runs_ignore_history (distinct : (registry.languages.map Language.name).Nodup)
    {cache : TableCache} {log : Array Record} (history : registry.History cache log) :
    (∀ {σ : Type} (options : Options) (emitter : Emitter σ) (sink : σ) (name : String)
        (text : List Char),
      let engine : Engine σ := { registry, options, emitter }
      let late : World σ := { sink, cache, log }
      let fresh : World σ := { sink }
      (late.table registry name).1.map SharedTable.table =
          (fresh.table registry name).1.map SharedTable.table ∧
        (∀ lexer, engine.SameRun lexer text (late.table registry name).2 (fresh.table registry name).2) ∧
        (engine.tokenize name text late).result = (engine.tokenize name text fresh).result ∧
        (engine.tokenize name text late).world.sink = (engine.tokenize name text fresh).world.sink) ∧
    ∀ language ∈ registry.languages,
      log.toList.count (.building language.name) ≤ 1 ∧
        cache.slots.countP (·.language == language) ≤ 1 := by
  refine ⟨fun {σ} options emitter sink name text => ?_,
    fun language _ => count_building_le_one history language⟩
  intro engine late fresh
  have served : (late.table registry name).1.map SharedTable.table =
      (fresh.table registry name).1.map SharedTable.table :=
    (table_of_sound distinct history.sound name).trans
      (table_of_sound distinct TableCache.sound_empty name).symm
  have runs (lexer : Lexer) :
      engine.SameRun lexer text (late.table registry name).2 (fresh.table registry name).2 :=
    sameRun_of_sound distinct lexer text rfl (history.sound.table name)
      (TableCache.sound_empty.table name)
  exact ⟨served, runs, Engine.tokenize_congr served rfl runs⟩

/-- The registry of the two languages, used for a run that fails in the middle, once it has built the
other language. -/
theorem runs_ignore_history_of_sample :
    ∃ table, Sample.numbered.build = .ok table ∧
      (Sample.registry.languages.map Language.name).Nodup ∧
      let engine : Engine Collector := .collecting Sample.registry {}
      let asked := (({ sink := {} } : World Collector).table Sample.registry "numbered").2
      let earlier := ({ table } : Lexer).drive engine ⟨.start table "12abc".toList, asked⟩
      let late : World Collector := { (endOf earlier).world with sink := {} }
      Sample.registry.History late.cache late.log ∧
        (ending earlier).1 = some (.stall 4 rootName) ∧
        late.cache.slots.map Slot.key = ["Numbered", "Letters"] ∧
        (engine.tokenize "letters" "ab".toList late).result =
          (engine.tokenize "letters" "ab".toList { sink := {} }).result ∧
        late.log.toList.count (.building "Letters") ≤ 1 := by
  have checked : (Sample.numbered.build.toOption.any fun table =>
      let asked := (({ sink := {} } : World Collector).table Sample.registry "numbered").2
      let earlier := ({ table } : Lexer).drive (.collecting Sample.registry {})
        ⟨.start table "12abc".toList, asked⟩
      (ending earlier).1 == some (.stall 4 rootName) &&
        (endOf earlier).world.cache.slots.map Slot.key == ["Numbered", "Letters"]) = true := by
    decide +kernel
  have distinct : (Sample.registry.languages.map Language.name).Nodup := by decide
  cases build : Sample.numbered.build with
  | error => rw [build] at checked; cases checked
  | ok table =>
    rw [build] at checked
    obtain ⟨fails, keys⟩ := (Bool.and_eq_true _ _).mp checked
    have asked : Sample.registry.History (Sample.registry.table {} "numbered").cache
        (#[] ++ (Sample.registry.table {} "numbered").records) := .lookUp .created "numbered"
    have history := asked.operation {} Collector.emitter { table } (.start table "12abc".toList) {} .drive
    obtain ⟨runs, counts⟩ := runs_ignore_history distinct history
    exact ⟨table, rfl, distinct, history, eq_of_beq fails, eq_of_beq keys,
      (runs {} Collector.emitter {} "letters" "ab".toList).2.2.1,
      (counts Sample.letters (List.mem_cons_of_mem _ List.mem_cons_self)).1⟩

end TableLexer
