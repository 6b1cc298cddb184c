/-
**A file behind other files.**

A run over several files goes on with the paper, the tables and the log that the files before have left. The file
comes out as it does alone: the paper has the same behind what was there before, and of the log the same is shown. A
table that is kept from before is the one that would be built, and the records of building it are not shown.

* `Config.Follows`: the world of a run behind others, and the world of the same run alone.
* `following`, `follows_run`: the two runs go in lockstep.
* `follows_tokenizeInput`, `follows_writeLine`: what is done for a file keeps them alike.
* `show_of_follows`: what is shown is put behind what was shown before.
-/

import TableLexer.CommandLine.Run
import TableLexer.Proofs.Java.Table
import TableLexer.Proofs.Scan.History

namespace TableLexer

open Step

/-! ### Look-ups that tell nothing -/

/-- All languages of the registry can be built. -/
def Registry.AllBuild (registry : Registry) : Prop :=
  ∀ language ∈ registry.languages, ∃ table, language.build = .ok table

/-- Where all languages can be built, look-ups write records for debugging only. -/
theorem Registry.AllBuild.level_of_lookUp {registry : Registry} (allBuild : registry.AllBuild) (cache : TableCache)
    (name : String) : ∀ record ∈ (registry.table cache name).records, record.level = .debug := by
  unfold Registry.table
  cases found : registry.find? name with
  | none => exact nofun
  | some language =>
    obtain ⟨table, built⟩ := allBuild language (List.mem_of_find?_eq_some found)
    dsimp only
    cases kept : cache.slot? language.name with
    | some slot =>
      rw [TableCache.getOrBuild_of_some language kept]
      exact nofun
    | none =>
      rw [TableCache.getOrBuild_of_none language kept, built]
      simp [TableCache.buildRecords, Record.level]

/-- The languages that come with the library can be built. -/
theorem Registry.allBuild_builtins : Registry.builtins.AllBuild := by
  intro language member
  obtain rfl : language = Java.language := List.mem_singleton.mp member
  obtain ⟨table, built, _⟩ := Java.exists_table
  exact ⟨table, built⟩

theorem Registry.nodup_builtins : (Registry.builtins.languages.map Language.name).Nodup := List.nodup_singleton _

namespace CommandLine

/-! ### The world behind other files -/

/-- The records that are shown. -/
def Config.shownRecords (config : Config) (log : Array Record) : List Record :=
  log.toList.filter (config.showsLevel ·.level)

/-- A run may go on in the world: its paper takes what is written, and its tables are those of the languages. -/
structure Ready (world : World Report.Paper) : Prop where
  room : world.sink.room = none
  sound : world.cache.Sound .builtins

/-- The late world is like the fresh one, behind all that was shown in the world before. -/
structure Config.Follows (config : Config) (before late fresh : World Report.Paper) : Prop where
  output : late.sink.written = before.sink.written ++ fresh.sink.written
  records : config.shownRecords late.log = config.shownRecords before.log ++ config.shownRecords fresh.log
  ready : Ready late
  freshReady : Ready fresh

variable {config : Config} {before late fresh : World Report.Paper}

/-- A paper without a limit takes what is written. -/
theorem write_of_unlimited {paper : Report.Paper} (unlimited : paper.room = none) (text : String) :
    Report.Paper.write text paper = .ok () { paper with written := paper.written ++ text } := by
  obtain ⟨written, room, torn⟩ := paper
  cases unlimited
  rfl

/-- Nothing was done in the world. -/
def untouched : World Report.Paper := { sink := {} }

theorem ready_untouched : Ready untouched := ⟨rfl, TableCache.sound_empty⟩

/-- Behind what was shown before, nothing is done yet. -/
theorem follows_self (ready : Ready before) : config.Follows before before untouched where
  output := (String.append_empty).symm
  records := (List.append_nil _).symm
  ready := ready
  freshReady := ready_untouched

/-! ### What keeps worlds alike -/

section Keeps

variable (follows : config.Follows before late fresh)
include follows

/-- What is written stands behind what was written before. -/
theorem Config.Follows.write (text : String) :
    config.Follows before { late with sink := { late.sink with written := late.sink.written ++ text } }
      { fresh with sink := { fresh.sink with written := fresh.sink.written ++ text } } where
  output := by
    dsimp only
    rw [follows.output, String.append_assoc]
  records := follows.records
  ready := ⟨follows.ready.room, follows.ready.sound⟩
  freshReady := ⟨follows.freshReady.room, follows.freshReady.sound⟩

/-- Records that are the same as far as they are shown may be added. -/
theorem Config.Follows.addRecords {records freshRecords : List Record}
    (same : records.filter (config.showsLevel ·.level) = freshRecords.filter (config.showsLevel ·.level)) :
    config.Follows before (late.addRecords records) (fresh.addRecords freshRecords) := by
  refine ⟨follows.output, ?_, ⟨follows.ready.room, follows.ready.sound⟩,
    ⟨follows.freshReady.room, follows.freshReady.sound⟩⟩
  have shown := follows.records
  unfold Config.shownRecords World.addRecords at *
  simp only [Array.toList_appendList, List.filter_append]
  rw [shown, same, List.append_assoc]

/-- A look-up serves the same table, and nothing of it is shown. -/
theorem Config.Follows.lookUp (untraced : config.options.trace = false) (name : String) :
    (late.table .builtins name).1.map SharedTable.table = (fresh.table .builtins name).1.map SharedTable.table ∧
      config.Follows before (late.table .builtins name).2 (fresh.table .builtins name).2 := by
  have unseen (cache : TableCache) :
      (Registry.builtins.table cache name).records.filter (config.showsLevel ·.level) = [] := by
    refine List.filter_eq_nil_iff.mpr fun record member => ?_
    rw [Registry.allBuild_builtins.level_of_lookUp cache name record member, Config.showsLevel, untraced]
    decide
  constructor
  · exact (table_of_sound Registry.nodup_builtins follows.ready.sound name).trans
      (table_of_sound Registry.nodup_builtins follows.freshReady.sound name).symm
  · have kept : config.Follows before
        { late with cache := (Registry.builtins.table late.cache name).cache }
        { fresh with cache := (Registry.builtins.table fresh.cache name).cache } :=
      ⟨follows.output, follows.records, ⟨follows.ready.room, follows.ready.sound.table name⟩,
        ⟨follows.freshReady.room, follows.freshReady.sound.table name⟩⟩
    exact kept.addRecords ((unseen _).trans (unseen _).symm)

end Keeps

/-! ### Runs -/

/-- A run behind others goes in lockstep with the same run alone. -/
def following (config : Config) (untraced : config.options.trace = false) (before : World Report.Paper) :
    Lockstep config.engine config.engine where
  deeper := 0
  further := 0
  member _ := True
  placed _ _ := True
  worlds := config.Follows before
  parted _ _ _ := False
  drift _ _ := True
  placement := placement_trivial
  drifts := World.drift_trivial _
  keeps parted _ := parted
  limit := config.engine.maxDepth_le
  exceeds _ fewer := absurd fewer (Nat.lt_irrefl _)
  notes record follows := by
    rw [record.moved_zero]
    exact follows.addRecords rfl
  looksUp := by
    rintro late fresh name follows
    obtain ⟨served, still⟩ := follows.lookUp untraced name
    exact ⟨served, still, fun _ _ => trivial⟩
  offers := by
    intro late fresh token follows
    have takes {world : World Report.Paper} (ready : Ready world) :
        config.engine.emitter.emit token world.sink = .ok ()
          { world.sink with written := world.sink.written ++ Report.tokenLine config.palette token } :=
      write_of_unlimited ready.room _
    rw [takes follows.ready, takes follows.freshReady]
    exact follows.write _
  intends _ _ _ _ _ := .inl (Lexer.intent_moved rfl rfl)

section Runs

variable (untraced : config.options.trace = false)
include untraced

/-- A lexer runs behind other files as it does alone. -/
theorem follows_run (follows : config.Follows before late fresh) (lexer : Lexer) (text : List Char) :
    (lexer.run config.engine text late).result = (lexer.run config.engine text fresh).result ∧
      config.Follows before (lexer.run config.engine text late).world (lexer.run config.engine text fresh).world := by
  let steps := following config untraced before
  have abreast : steps.Abreast (lexer.drive config.engine ⟨.start lexer.table text, late⟩)
      (lexer.drive config.engine ⟨.start lexer.table text, fresh⟩) :=
    @Lockstep.abreast_drive _ _ _ _ steps lexer trivial text trivial _ _ follows
  unfold Lexer.run
  generalize lexer.drive config.engine ⟨.start lexer.table text, late⟩ = result,
    lexer.drive config.engine ⟨.start lexer.table text, fresh⟩ = freshResult at abreast
  cases abreast with
  | @ok _ run freshRun runs =>
    have scan : run.scan = freshRun.scan := runs.scan.trans freshRun.scan.deepened_zero
    exact ⟨congrArg (fun scan : Scan => Except.ok scan.metrics) scan, runs.worlds⟩
  | error error runs => exact ⟨congrArg Except.error error.moved_zero, runs.worlds⟩
  | parted parts => exact parts.elim

/-- An input is tokenized behind other files as it is alone. -/
theorem follows_tokenizeInput (follows : config.Follows before late fresh) (language : String) (input : Input) :
    (config.engine.tokenizeInput language input late).result =
        (config.engine.tokenizeInput language input fresh).result ∧
      config.Follows before (config.engine.tokenizeInput language input late).world
        (config.engine.tokenizeInput language input fresh).world := by
  unfold Engine.tokenizeInput Engine.tokenize
  cases input.text? with
  | error => exact ⟨rfl, follows⟩
  | ok text =>
    obtain ⟨served, still⟩ := follows.lookUp untraced language
    dsimp only
    rw [show config.engine.registry = Registry.builtins from rfl]
    generalize late.table .builtins language = lateAnswer, fresh.table .builtins language = freshAnswer
      at served still
    obtain ⟨lateError | shared, lateWorld⟩ := lateAnswer <;> obtain ⟨freshError | freshShared, freshWorld⟩ := freshAnswer
    · cases served
      exact ⟨rfl, still⟩
    · cases served
    · cases served
    · have same : shared.table = freshShared.table := Except.ok.inj served
      dsimp only
      rw [same]
      exact follows_run untraced still _ text

end Runs

/-- The ending of a run behind others, and that of the same run alone. -/
def Ending.Follows (config : Config) (before : World Report.Paper) (late fresh : Ending) : Prop :=
  late.failure = fresh.failure ∧ config.Follows before late.world fresh.world

theorem follows_writeLine (follows : config.Follows before late fresh) (line : String) :
    Ending.Follows config before (Config.writeLine line late) (Config.writeLine line fresh) ∧
      (Config.writeLine line fresh).failure = none := by
  unfold Config.writeLine
  rw [write_of_unlimited follows.ready.room, write_of_unlimited follows.freshReady.room]
  exact ⟨⟨rfl, follows.write line⟩, rfl⟩

/-! ### What is shown -/

/-- What runs show one after another: their outputs and their messages put together, and success if all
succeeded. -/
def Shown.together (shown : List Shown) : Shown where
  exitCode := if shown.all (·.exitCode = 0) then 0 else 1
  output := String.join (shown.map Shown.output)
  messages := String.join (shown.map Shown.messages)

theorem exitCode_show (config : Config) (ending : Ending) :
    (ending.show config).exitCode = if ending.failure.isSome then 1 else 0 := rfl

theorem output_show (config : Config) (ending : Ending) : (ending.show config).output = ending.world.sink.written :=
  rfl

theorem messages_show (config : Config) (ending : Ending) : (ending.show config).messages =
    String.join ((config.shownRecords ending.world.log).map fun record => messageLine record.level record.message) ++
      (ending.failure.map (messageLine .error)).getD "" := rfl

/-- What was put together may be put together with more. -/
theorem together_together_cons (front rest : List Shown) :
    Shown.together (Shown.together front :: rest) = Shown.together (front ++ rest) := by
  unfold Shown.together
  simp only [List.map_cons, List.map_append, String.join_cons, String.join_append, List.all_cons, List.all_append,
    Shown.mk.injEq, and_true]
  cases front.all (·.exitCode = 0) <;> simp

/-- What a single run shows is put together with nothing else. -/
theorem together_show (config : Config) (ending : Ending) :
    Shown.together [ending.show config] = ending.show config := by
  obtain ⟨world, failure⟩ := ending
  cases failure <;> simp [Shown.together, Ending.show]

/-- **Behind other files**, a run shows what it shows alone. -/
theorem show_of_follows (follows : config.Follows before late fresh) (failure : Option String) :
    Ending.show config ⟨late, failure⟩ =
      .together [Ending.show config ⟨before, none⟩, Ending.show config ⟨fresh, failure⟩] := by
  have same (one other : Shown) (code : one.exitCode = other.exitCode) (output : one.output = other.output)
      (messages : one.messages = other.messages) : one = other := by
    cases one
    cases other
    simp_all
  refine same _ _ ?_ ?_ ?_
  · cases failure <;> rfl
  · simp [Shown.together, output_show, follows.output]
  · simp [Shown.together, messages_show, follows.records, String.append_assoc]

end CommandLine

end TableLexer
