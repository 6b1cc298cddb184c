/-
**Where a run could be started again.**

A scan whose stack is back to the root has nothing left of what it read but its cursor and its counters. To go
on with it is to start anew on the rest of the text: the sink is offered the same tokens, the run ends in the
same way, and what it counts is added. A sink and the tables that were built so far make no difference either,
as long as the answers that they give from then on are the same.

* `Emitter.AnswersAlike`, `Registry.ServesAlike`: sinks and tables that cannot be told apart.
* `servesAlike_of_sound`: the tables of languages with different names are such tables.
* `Lockstep.anew`: a run that starts further on goes in lockstep with one that starts anew.
* `resumes_drive`: to go on ends as to start anew.
* `watched_passes`: a run into a watched sink comes to where the run into the sink comes.
* `rest_decides_what_follows`: what follows a scan whose stack is back, and what the whole run is then.
-/

import TableLexer.Proofs.Scan.History
import TableLexer.Proofs.Scan.Resumed

namespace TableLexer

open Step

variable {σ : Type}

/-! ### What cannot be told apart -/

/-- The answers of the sink to tokens that it is offered, one after another. -/
def Emitter.answers (emitter : Emitter σ) : List Token → σ → List (Option String)
  | [], _ => []
  | token :: rest, sink => emitter.refusal? token sink :: answers emitter rest (emitter.after token sink)

/-- The sinks give the same answers, whatever they are offered. -/
def Emitter.AnswersAlike (emitter : Emitter σ) (one other : σ) : Prop :=
  ∀ tokens, emitter.answers tokens one = emitter.answers tokens other

/-- What names are served, one after another. -/
def Registry.serve (registry : Registry) : List String → TableCache → List (Except BuildError Table)
  | [], _ => []
  | name :: rest, cache =>
    (registry.table cache name).outcome.map SharedTable.table ::
      serve registry rest (registry.table cache name).cache

/-- Names are served the same, whichever are looked up, with the one and with the other tables built so
far. -/
def Registry.ServesAlike (registry : Registry) (one other : TableCache) : Prop :=
  ∀ names, registry.serve names one = registry.serve names other

namespace Emitter.AnswersAlike

variable {emitter : Emitter σ} {one other : σ}

theorem refusal_eq (alike : emitter.AnswersAlike one other) (token : Token) :
    emitter.refusal? token one = emitter.refusal? token other :=
  (List.cons.inj (alike [token])).1

theorem after (alike : emitter.AnswersAlike one other) (token : Token) :
    emitter.AnswersAlike (emitter.after token one) (emitter.after token other) :=
  fun tokens => (List.cons.inj (alike (token :: tokens))).2

end Emitter.AnswersAlike

namespace Registry.ServesAlike

variable {registry : Registry} {one other : TableCache}

theorem table_eq (alike : registry.ServesAlike one other) (name : String) :
    (registry.table one name).outcome.map SharedTable.table =
      (registry.table other name).outcome.map SharedTable.table :=
  (List.cons.inj (alike [name])).1

theorem later (alike : registry.ServesAlike one other) (name : String) :
    registry.ServesAlike (registry.table one name).cache (registry.table other name).cache :=
  fun names => (List.cons.inj (alike (name :: names))).2

end Registry.ServesAlike

/-- Where the canonical names differ, sound caches serve names the same. -/
theorem servesAlike_of_sound {registry : Registry}
    (distinct : (registry.languages.map Language.name).Nodup) {one other : TableCache}
    (sound : one.Sound registry) (otherSound : other.Sound registry) : registry.ServesAlike one other := by
  intro names
  induction names generalizing one other with
  | nil => rfl
  | cons name rest ih =>
    have here : (registry.table one name).outcome.map SharedTable.table =
        (registry.table other name).outcome.map SharedTable.table :=
      (table_of_sound distinct sound name).trans (table_of_sound distinct otherSound name).symm
    exact List.cons_eq_cons.mpr ⟨here, ih (sound.table name) (otherSound.table name)⟩

/-- Lists without limits take all tokens. -/
theorem Collector.answersAlike_of_unlimited {one other : Collector} (unlimited : one.limit = none)
    (otherUnlimited : other.limit = none) : emitter.AnswersAlike one other := by
  have takes (tokens : List Token) (collector : Collector) (unlimited : collector.limit = none) :
      emitter.answers tokens collector = tokens.map fun _ => none := by
    induction tokens generalizing collector with
    | nil => rfl
    | cons token rest ih =>
      have taken := emit_of_unlimited unlimited token
      unfold Emitter.answers Emitter.refusal? Emitter.after
      rw [taken]
      exact List.cons_eq_cons.mpr ⟨rfl, ih _ unlimited⟩
  exact fun tokens => (takes tokens one unlimited).trans (takes tokens other otherUnlimited).symm

/-! ### To start anew -/

/-- A run that starts further on goes in lockstep with one of the same text that starts where the text
does, with a sink and tables that cannot be told apart. What is known of the two sinks, and stays so when both
are offered the same token and answer the same, is known of them at all times. -/
def Lockstep.anew (engine : Engine σ) (further : Nat) (known : σ → σ → Prop)
    (stays : ∀ token {sink twin}, known sink twin →
      engine.emitter.refusal? token sink = engine.emitter.refusal? token twin →
      known (engine.emitter.after token sink) (engine.emitter.after token twin)) :
    Lockstep engine engine where
  deeper := 0
  further
  member _ := True
  placed _ _ := True
  worlds world twin := engine.emitter.AnswersAlike world.sink twin.sink ∧
    engine.registry.ServesAlike world.cache twin.cache ∧ known world.sink twin.sink
  parted _ _ _ := False
  drift _ _ := True
  placement := placement_trivial
  drifts := World.drift_trivial _
  keeps parted _ := parted
  limit := engine.maxDepth_le
  exceeds _ fewer := absurd fewer (Nat.lt_irrefl _)
  notes _ alike := alike
  looksUp := by
    rintro world twin name ⟨answers, serves, known⟩
    exact ⟨serves.table_eq name, ⟨answers, serves.later name, known⟩, fun _ _ => trivial⟩
  offers := by
    rintro world twin token ⟨answers, serves, known⟩
    have same := answers.refusal_eq token
    have later := answers.after token
    have still := stays token known same
    unfold Emitter.refusal? at same
    unfold Emitter.after at later still
    cases answer : engine.emitter.emit token world.sink <;>
      cases twinAnswer : engine.emitter.emit token twin.sink <;>
        rw [answer, twinAnswer] at same later still
    · exact ⟨later, serves, still⟩
    · cases same
    · cases same
    · exact ⟨Option.some.inj same, later, serves, still⟩
  intends _ _ _ _ _ := .inl (Lexer.intent_moved rfl rfl)

/-- What went on from the scan ended as what started anew where its cursor was: with the same error, at a
position that counts from there, and with a scan that went on from the one before as the new one did from
its start. -/
structure Step.Resumes (before : Scan) (resumed anew : EStateM.Result ScanError (Run σ) Unit) : Prop where
  error : (ending resumed).1 = (ending anew).1.map (·.moved 0 before.cursor)
  scan : (ending resumed).2 = before.resumed (ending anew).2

section Anew

variable {engine : Engine σ} {known : σ → σ → Prop}
  {stays : ∀ token {sink twin}, known sink twin →
    engine.emitter.refusal? token sink = engine.emitter.refusal? token twin →
    known (engine.emitter.after token sink) (engine.emitter.after token twin)}

theorem Lockstep.Abreast.resumes {before : Scan} {further anew : EStateM.Result ScanError (Run σ) Unit}
    (abreast : (Lockstep.anew engine before.cursor known stays).Abreast further anew) :
    Resumes before (resumed before further) anew ∧
      known (endOf (resumed before further)).world.sink (endOf anew).world.sink := by
  have same {scan twin : Scan} (moved : scan = twin.deepened 0) :
      before.resumed scan = before.resumed twin :=
    congrArg before.resumed (moved.trans twin.deepened_zero)
  cases abreast with
  | ok runs => exact ⟨⟨rfl, same runs.scan⟩, runs.worlds.2.2⟩
  | error error runs => exact ⟨⟨rfl, same runs.scan⟩, runs.worlds.2.2⟩
  | parted parts => exact parts.elim

/-- To go on with a scan whose stack is back to the root ends as to start anew on the text ahead, in a world
that cannot be told apart. -/
theorem resumes_drive (known : σ → σ → Prop) (stays : ∀ token {sink twin}, known sink twin →
      engine.emitter.refusal? token sink = engine.emitter.refusal? token twin →
      known (engine.emitter.after token sink) (engine.emitter.after token twin))
    {lexer : Lexer} {run : Run σ} {rest : List Char} (back : run.scan.stack = .new lexer.table.root)
    (ahead : run.scan.ahead = some rest) {fresh : World σ}
    (answers : engine.emitter.AnswersAlike run.world.sink fresh.sink)
    (serves : engine.registry.ServesAlike run.world.cache fresh.cache)
    (here : known run.world.sink fresh.sink) :
    let resumed := lexer.drive engine run
    let anew := lexer.drive engine ⟨.start lexer.table rest, fresh⟩
    Resumes run.scan resumed anew ∧ known (endOf resumed).world.sink (endOf anew).world.sink := by
  have start : run = Run.resumed run.scan ⟨.start lexer.table rest, run.world⟩ :=
    congrArg (fun scan => (⟨scan, run.world⟩ : Run σ)) (Scan.eq_resumed_start back ahead)
  have further := (congrArg (lexer.drive engine) start).trans (drive_resumed engine lexer run.scan _)
  let steps := Lockstep.anew engine run.scan.cursor known stays
  have abreast : steps.Abreast
      ((lexer.moved 0 run.scan.cursor).drive engine ⟨.start lexer.table rest, run.world⟩)
      (lexer.drive engine ⟨.start lexer.table rest, fresh⟩) :=
    @Lockstep.abreast_drive _ _ _ _ steps lexer trivial rest trivial _ _ ⟨answers, serves, here⟩
  intro resumed anew
  rw [show resumed = _ from further]
  exact abreast.resumes

end Anew

/-! ### What the sink is offered -/

/-- A watched sink refuses what the sink refuses. -/
theorem Emitter.refusal?_watched (emitter : Emitter σ) (token : Token) (watched : Watched σ) :
    emitter.watched.refusal? token watched = emitter.refusal? token watched.sink ∧
      emitter.watched.after token watched =
        ⟨emitter.after token watched.sink,
          watched.answers ++ [(token, emitter.refusal? token watched.sink)]⟩ := by
  unfold Emitter.refusal? Emitter.after
  cases answer : emitter.emit token watched.sink with
  | ok => rw [Emitter.watched_of_ok answer]; exact ⟨rfl, rfl⟩
  | error => rw [Emitter.watched_of_error answer]; exact ⟨rfl, rfl⟩

/-- To watch sinks makes no difference to what they answer. -/
theorem Emitter.AnswersAlike.watched {emitter : Emitter σ} {one other : Watched σ}
    (alike : emitter.AnswersAlike one.sink other.sink) : emitter.watched.AnswersAlike one other := by
  have plain (tokens : List Token) (watched : Watched σ) :
      emitter.watched.answers tokens watched = emitter.answers tokens watched.sink := by
    induction tokens generalizing watched with
    | nil => rfl
    | cons token rest ih =>
      obtain ⟨refusal, after⟩ := emitter.refusal?_watched token watched
      exact List.cons_eq_cons.mpr ⟨refusal, after ▸ ih _⟩
  exact fun tokens => (plain tokens one).trans ((alike tokens).trans (plain tokens other).symm)

/-- The tokens that the run offers its sink from the state on, each with the message with which the sink
refuses it, if it does. -/
def Engine.offered (engine : Engine σ) (lexer : Lexer) (run : Run σ) : List (Token × Option String) :=
  (endOf (lexer.drive engine.watched ⟨run.scan, run.world.watched⟩)).world.sink.answers

variable {engine : Engine σ} {lexer : Lexer}

/-- A watched sink that goes on has the answers from before and those that a new one has. -/
theorem offered_resumed {seen : Run (Watched σ)} {rest : List Char}
    (back : seen.scan.stack = .new lexer.table.root) (ahead : seen.scan.ahead = some rest)
    {fresh : World σ} (answers : engine.emitter.AnswersAlike seen.world.sink.sink fresh.sink)
    (serves : engine.registry.ServesAlike seen.world.cache fresh.cache) :
    (endOf (lexer.drive engine.watched seen)).world.sink.answers =
      seen.world.sink.answers ++ engine.offered lexer ⟨.start lexer.table rest, fresh⟩ := by
  let known (one other : Watched σ) : Prop := one.answers = seen.world.sink.answers ++ other.answers
  have stays (token : Token) {sink twin : Watched σ} (here : known sink twin)
      (same : engine.watched.emitter.refusal? token sink = engine.watched.emitter.refusal? token twin) :
      known (engine.watched.emitter.after token sink) (engine.watched.emitter.after token twin) := by
    obtain ⟨refusal, after⟩ := engine.emitter.refusal?_watched token sink
    obtain ⟨twinRefusal, twinAfter⟩ := engine.emitter.refusal?_watched token twin
    have same : engine.emitter.refusal? token sink.sink = engine.emitter.refusal? token twin.sink :=
      refusal.symm.trans (same.trans twinRefusal)
    show (engine.emitter.watched.after token sink).answers =
      seen.world.sink.answers ++ (engine.emitter.watched.after token twin).answers
    rw [after, twinAfter, same, ← List.append_assoc, ← here]
  have watched : engine.watched.emitter.AnswersAlike seen.world.sink fresh.watched.sink := answers.watched
  have starts : known seen.world.sink fresh.watched.sink := (List.append_nil _).symm
  exact (resumes_drive known stays back ahead watched serves starts).2

/-- A run into a watched sink comes to where the run into the sink comes. -/
theorem watched_passes {start run : Run σ} (passed : Passes engine lexer start run)
    {first : Run (Watched σ)} (runs : (Lockstep.watching engine).Runs first start) :
    ∃ seen, Passes engine.watched lexer first seen ∧ (Lockstep.watching engine).Runs seen run := by
  let steps := Lockstep.watching engine
  induction passed with
  | start => exact ⟨first, .start, runs⟩
  | @step run next _ unfinished stepped ih =>
    obtain ⟨seen, passed, runs⟩ := ih
    have nestings : steps.Nestings (nestedRun engine.watched (lexer.levelsLeft engine.watched))
        (nestedRun engine (lexer.levelsLeft engine)) :=
      steps.nestings_nestedRun (Nat.le_refl _) fun _ => rfl
    have abreast : steps.Abreast (lexer.step engine.watched seen) (lexer.step engine run) :=
      Lockstep.abreast_step nestings trivial runs (fun _ _ => trivial) unfinished
    have undone : seen.scan.isDone = false := (congrArg Scan.isDone runs.scan).trans unfinished
    rw [stepped] at abreast
    generalize result : lexer.step engine.watched seen = ended at abreast
    cases abreast with
    | ok runs => exact ⟨_, passed.step undone result, runs⟩
    | parted parts => exact parts.elim

/-- Where the steps of a run have brought its stack back to the root, only the text that is left decides what
follows. To go on ends as to start anew on that text, with a sink and with tables that cannot be told apart: in
the same way, with the positions in errors counted from there, and with what is counted added. The sink is
offered the same tokens and gives the same answers. So the whole run offers the tokens that were offered
before and those of the run that starts anew. -/
theorem rest_decides_what_follows (engine : Engine σ) (lexer : Lexer) {text rest : List Char}
    {world : World σ} {run : Run σ}
    (passed : Passes engine lexer ⟨.start lexer.table text, world⟩ run)
    (back : run.scan.stack = .new lexer.table.root)
    (left : Text.dropBytes? text run.scan.cursor = some rest) (fresh : World σ)
    (answers : engine.emitter.AnswersAlike run.world.sink fresh.sink)
    (serves : engine.registry.ServesAlike run.world.cache fresh.cache) :
    let resumed := lexer.drive engine run
    let anew := lexer.drive engine ⟨.start lexer.table rest, fresh⟩
    let offered := engine.offered lexer ⟨.start lexer.table rest, fresh⟩
    Resumes run.scan resumed anew ∧
    (run.world.sink = fresh.sink → (endOf resumed).world.sink = (endOf anew).world.sink) ∧
    engine.offered lexer run = offered ∧
    lexer.drive engine ⟨.start lexer.table text, world⟩ = resumed ∧
    ∃ seen, Passes engine.watched lexer ⟨.start lexer.table text, world.watched⟩ seen ∧
      seen.scan = run.scan ∧ seen.world.sink.sink = run.world.sink ∧
      engine.offered lexer ⟨.start lexer.table text, world⟩ = seen.world.sink.answers ++ offered := by
  intro resumed anew offered
  have ahead : run.scan.ahead = some rest := passed.ahead_eq.trans left
  refine ⟨?_, ?_, ?_, drive_eq_of_passes passed, ?_⟩
  · exact (resumes_drive (fun _ _ => True) (fun _ _ _ _ _ => trivial) back ahead answers serves trivial).1
  · exact fun same => (resumes_drive (· = ·) (fun token sink twin same _ => same ▸ rfl) back ahead answers
      serves same).2
  · exact offered_resumed back ahead answers serves
  · have starts : (Lockstep.watching engine).Runs ⟨.start lexer.table text, world.watched⟩
        ⟨.start lexer.table text, world⟩ := ⟨rfl, rfl, rfl⟩
    obtain ⟨seen, passes, scan, sinks, caches⟩ := watched_passes passed starts
    have same : seen.scan = run.scan := scan.trans run.scan.deepened_zero
    refine ⟨seen, passes, same, sinks, ?_⟩
    unfold Engine.offered
    rw [drive_eq_of_passes passes]
    exact offered_resumed (same ▸ back) (same ▸ ahead) (sinks ▸ answers) (caches ▸ serves)

/-- The second number is read as if it were the first, by a new run with a new list and no tables built. -/
theorem rest_decides_what_follows_of_sample :
    ∃ table run, Sample.numbered.build = .ok table ∧
      let engine : Engine Collector := .collecting Sample.registry {}
      let lexer : Lexer := { table }
      let anew : Run Collector := ⟨.start table "3c".toList, { sink := {} }⟩
      Passes engine lexer ⟨.start table "12ab3c".toList, { sink := {} }⟩ run ∧
        run.scan.stack = .new table.root ∧
        Text.dropBytes? "12ab3c".toList run.scan.cursor = some "3c".toList ∧
        engine.emitter.AnswersAlike run.world.sink {} ∧
        Sample.registry.ServesAlike run.world.cache {} ∧
        (ending (lexer.drive engine run)).1 = some (.stall 5 rootName) ∧
        Resumes run.scan (lexer.drive engine run) (lexer.drive engine anew) ∧
        engine.offered lexer run = engine.offered lexer anew := by
  have checked : (Sample.numbered.build.toOption.any fun table =>
      let engine : Engine Collector := .collecting Sample.registry {}
      let lexer : Lexer := { table }
      let stepped := lexer.step engine ⟨.start table "12ab3c".toList, { sink := {} }⟩
      let run := endOf stepped
      (ending stepped).1 == none && run.scan.cursor == 4 && run.scan.stack == .new table.root &&
        run.world.sink.limit == none &&
        (ending (lexer.drive engine run)).1 == some (.stall 5 rootName)) = true := by decide +kernel
  have distinct : (Sample.registry.languages.map Language.name).Nodup := by decide
  cases build : Sample.numbered.build with
  | error => rw [build] at checked; cases checked
  | ok table =>
    rw [build] at checked
    let engine : Engine Collector := .collecting Sample.registry {}
    let lexer : Lexer := { table }
    let start : Run Collector := ⟨.start table "12ab3c".toList, { sink := {} }⟩
    simp only [Except.toOption, Option.any_some, Bool.and_eq_true, beq_iff_eq] at checked
    obtain ⟨⟨⟨⟨succeeds, cursor⟩, back⟩, unlimited⟩, stalls⟩ := checked
    have succeeds : (ending (lexer.step engine start)).1 = none := succeeds
    have cursor : (endOf (lexer.step engine start)).scan.cursor = 4 := cursor
    have back : (endOf (lexer.step engine start)).scan.stack = .new table.root := back
    have unlimited : (endOf (lexer.step engine start)).world.sink.limit = none := unlimited
    have stalls : (ending (lexer.drive engine (endOf (lexer.step engine start)))).1 =
      some (.stall 5 rootName) := stalls
    have drifts : World.Drift engine fun before after =>
        before.cache.Sound Sample.registry → after.cache.Sound Sample.registry :=
      World.drift_of_table engine fun name earlier => earlier.table name
    have sound := carries_lexerStep drifts lexer start TableCache.sound_empty
    cases stepped : lexer.step engine start with
    | error => rw [stepped] at succeeds; cases succeeds
    | ok _ run =>
      rw [stepped] at cursor back unlimited stalls sound
      have passed : Passes engine lexer start run := .step .start rfl stepped
      have left : Text.dropBytes? "12ab3c".toList run.scan.cursor = some "3c".toList := by
        rw [show run.scan.cursor = 4 from cursor]
        decide
      have answers : engine.emitter.AnswersAlike run.world.sink {} :=
        Collector.answersAlike_of_unlimited unlimited rfl
      have serves : Sample.registry.ServesAlike run.world.cache {} :=
        servesAlike_of_sound distinct sound TableCache.sound_empty
      obtain ⟨resumes, _, offered, _⟩ := rest_decides_what_follows engine lexer passed back left
        { sink := {} } answers serves
      exact ⟨table, run, rfl, passed, back, left, answers, serves, stalls, resumes, offered⟩

end TableLexer
