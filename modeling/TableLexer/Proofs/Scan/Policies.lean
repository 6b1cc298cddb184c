/-
**The two stall policies.**

A run under the strict policy ends where no rule is chosen; under the lenient one it makes the character
there an error token and goes on. Up to the first such place the two runs are the same.

* `lenient_never_stalls`: no run ends with a stall under the lenient policy, at whichever depth.
* `Engine.policies`: how the two runs part.
* `strict_and_lenient_agree_up_to_stall`: what the two runs have in common.
-/

import TableLexer.Proofs.Scan.Raised
import TableLexer.Proofs.Scan.Twins
import TableLexer.Proofs.Scan.Watched

namespace TableLexer

open Step

variable {σ : Type}

/-- The engine under another stall policy. -/
def Engine.under (engine : Engine σ) (stall : StallPolicy) : Engine σ :=
  { engine with options := { engine.options with stall } }

/-- The token for a character that no rule covers. -/
def Token.skipped (c : Char) : Token := ⟨.error, String.ofList [c]⟩

/-! ### What the policies do -/

/-- No run ends with a stall under the lenient policy. -/
theorem lenient_never_stalls {engine : Engine σ} (lenient : engine.options.stall = .lenient)
    (lexer : Lexer) (text : List Char) (world : World σ) (offset : Nat) (name : String) :
    (ending (lexer.drive engine ⟨.start lexer.table text, world⟩)).1 ≠ some (.stall offset name) := by
  intro stalls
  obtain ⟨ended, failed⟩ := exists_of_ending stalls
  obtain ⟨child, piece, run, failsIn⟩ := exists_failsIn failed
  cases failsIn.raises with
  | intent ahead fails =>
    obtain ⟨_, ⟨strict, _⟩ | ⟨_, other⟩⟩ := Lexer.exists_of_intent_fail fails
    · cases lenient.symm.trans strict
    · cases other
  | deed comes fails => cases fails

/-- What a step does for a character that it skips. -/
def Lexer.skipping (lexer : Lexer) (scan : Scan) (c : Char) : Intent :=
  .go [.note (.skipped lexer.table.language (lexer.base + scan.cursor)
    (lexer.table.state scan.stack.top).name [c]), .emit .error [c], .fallBack] c.utf8Size

/-- The policies differ only where no rule is chosen: there the strict one fails and the lenient one skips
the character. -/
theorem Lexer.intent_under (engine : Engine σ) (lexer : Lexer) (scan : Scan) (c : Char)
    (rest : List Char) :
    lexer.intent (engine.under .strict).options scan (c :: rest) =
        lexer.intent (engine.under .lenient).options scan (c :: rest) ∨
      lexer.intent (engine.under .strict).options scan (c :: rest) =
          .fail (.stall (lexer.base + scan.cursor) (lexer.table.state scan.stack.top).name) ∧
        lexer.intent (engine.under .lenient).options scan (c :: rest) = lexer.skipping scan c := by
  unfold Lexer.intent
  dsimp only
  cases (lexer.table.state scan.stack.top).select (c :: rest) with
  | none => exact .inr ⟨rfl, rfl⟩
  | some selection => exact .inl rfl

/-- The world in which the skipping of a character has been told of and its token has been offered. -/
def Engine.skipped (engine : Engine σ) (record : Record) (c : Char) (world : World σ) : World σ :=
  { world.addRecords [record] with sink := engine.emitter.after (.skipped c) world.sink }

/-- To skip a character offers its token to the sink, and changes nothing else of the world. -/
theorem world_of_skipping (engine : Engine σ) (nested : Option (NestedRun σ)) (lexer : Lexer)
    (scan : Scan) (c : Char) (run : Run σ) :
    ∃ record, (endOf ((lexer.skipping scan c).carryOut engine nested lexer run)).world =
      engine.skipped record c run.world := by
  let record : Record := .skipped lexer.table.language (lexer.base + scan.cursor)
    (lexer.table.state scan.stack.top).name [c]
  have noted : note record run = .ok () ⟨run.scan, run.world.addRecords [record]⟩ := rfl
  refine ⟨record, ?_⟩
  unfold Lexer.skipping Intent.carryOut
  rw [world_of_bind fun _ _ => rfl, enactAll, enact, bind_of_ok noted, enactAll,
    world_of_bind fun _ _ => rfl]
  exact world_of_emit engine .error (List.cons_ne_nil c []) _

/-! ### How the runs part -/

/-- The strict run has ended with a stall, where the text has the character, and the lenient one has gone on
from the same world, once the token for the character was offered. -/
structure Engine.SkipsAt (engine : Engine σ) (drift : World σ → World σ → Prop) (text : List Char)
    (offset : Nat) (c : Char) (world after : World σ) : Prop where
  stands : ∃ before rest, text = before ++ c :: rest ∧ Text.byteLength before = offset
  goes_on : ∃ record, drift (engine.skipped record c world) after

/-- Runs under the two policies part where no rule is chosen. -/
def Engine.policies (engine : Engine σ) (text : List Char) {drift : World σ → World σ → Prop}
    (drifts : World.Drift (engine.under .lenient) drift) :
    (engine.under .strict).Parting (engine.under .lenient) text where
  parted error world after := ∃ offset name c, error = .stall offset name ∧
    engine.SkipsAt drift text offset c world after
  drift := drift
  drifts := drifts
  keeps := by
    rintro error world before after ⟨offset, name, c, same, stands, record, drifted⟩ later
    exact ⟨offset, name, c, same, stands, record, drifts.trans drifted later⟩
  intends := by
    intro lexer scan rest some_text stands
    obtain ⟨c, tail, rfl⟩ := List.exists_cons_of_ne_nil some_text
    rcases lexer.intent_under engine scan c tail with same | ⟨fails, skips⟩
    · exact .inl same
    · refine .inr ⟨_, fails, fun nested run => ?_⟩
      obtain ⟨before, after, whole, length⟩ := stands
      obtain ⟨record, world⟩ := world_of_skipping (engine.under .lenient) nested lexer scan c run
      rw [skips, world]
      exact ⟨_, _, c, rfl, ⟨before, tail ++ after, whole, length⟩, record, drifts.refl _⟩

/-- The lenient run is the strict one, or goes on where that ends with a stall. -/
theorem lenient_or_parted {engine : Engine σ} {table : Table}
    (starts : engine.registry.StartsAtCursor table) {world : World σ}
    (built : world.cache.BuiltFrom engine.registry) (text : List Char)
    {drift : World σ → World σ → Prop} (drifts : World.Drift (engine.under .lenient) drift) :
    let strict := ({ table } : Lexer).drive (engine.under .strict) ⟨.start table text, world⟩
    let lenient := ({ table } : Lexer).drive (engine.under .lenient) ⟨.start table text, world⟩
    strict = lenient ∨ ∃ offset name c run, strict = .error (.stall offset name) run ∧
      engine.SkipsAt drift text offset c run.world (endOf lenient).world := by
  intro strict lenient
  have twins : (engine.under .strict).Twins (engine.under .lenient) := ⟨rfl, rfl, rfl⟩
  let steps := Lockstep.twins twins starts (engine.policies text drifts)
  have worlds : steps.worlds world world := ⟨rfl, built⟩
  have abreast : steps.Abreast strict lenient :=
    @Lockstep.abreast_drive _ _ _ _ steps { table } (.inl rfl) text (.whole text) _ _ worlds
  rcases abreast.eq_or_parted rfl rfl And.left with same | ⟨_, run, fails, offset, name, c, rfl, skips⟩
  · exact .inl same
  · exact .inr ⟨offset, name, c, run, fails, skips⟩

/-- A strict run that does not end with a stall is the lenient one. -/
theorem lenient_eq_strict {engine : Engine σ} {table : Table}
    (starts : engine.registry.StartsAtCursor table) {world : World σ}
    (built : world.cache.BuiltFrom engine.registry) (text : List Char)
    (unstalled : ∀ offset name, (ending (({ table } : Lexer).drive (engine.under .strict)
      ⟨.start table text, world⟩)).1 ≠ some (.stall offset name)) :
    ({ table } : Lexer).drive (engine.under .lenient) ⟨.start table text, world⟩ =
      ({ table } : Lexer).drive (engine.under .strict) ⟨.start table text, world⟩ := by
  rcases lenient_or_parted starts built text (World.drift_trivial _) with
    equal | ⟨offset, name, _, _, fails, _⟩
  · exact equal.symm
  · exact absurd (congrArg (fun result => (ending result).1) fails) (unstalled offset name)

/-! ### The answers of a sink to both -/

/-- Where the strict run ends with a stall, its sink has taken all that it was offered, and the sink of the
lenient run is offered the same and then the character. -/
theorem answers_of_stall {engine : Engine σ} {table : Table}
    (starts : engine.registry.StartsAtCursor table) {world : World σ}
    (built : world.cache.BuiltFrom engine.registry) (text : List Char) :
    let strict := ({ table } : Lexer).drive (engine.watched.under .strict)
      ⟨.start table text, world.watched⟩
    let lenient := ({ table } : Lexer).drive (engine.watched.under .lenient)
      ⟨.start table text, world.watched⟩
    ∀ offset name, (ending strict).1 = some (.stall offset name) →
      ∃ before c rest tokens, text = before ++ c :: rest ∧ Text.byteLength before = offset ∧
        (endOf strict).world.sink.answers = Watched.takings tokens ∧
        (engine.emitter.watched.after (.skipped c) (endOf strict).world.sink).answers <+:
          (endOf lenient).world.sink.answers := by
  intro strict lenient offset name stalls
  obtain ⟨tokens, answers⟩ : ∃ tokens,
      (endOf strict).world.sink.answers = Watched.takings tokens := by
    rcases answers_of_drive (engine.under .strict) { table } text world with
      ⟨_, _, _, answers⟩ | ⟨_, _, _, _, _, _, _, _, _, refused, _⟩
    · exact ⟨_, congrArg Watched.answers answers⟩
    · cases stalls.symm.trans refused
  have parts : strict = lenient ∨ _ := @lenient_or_parted _ engine.watched table starts world.watched
    built text _ (Watched.drift_answers (engine.under .lenient))
  rcases parts with same | ⟨other, called, c, ended, fails, skips⟩
  · have lenient_stalls := same ▸ stalls
    exact absurd lenient_stalls (lenient_never_stalls rfl _ text world.watched offset name)
  · have fails : strict = .error (.stall other called) ended := fails
    rw [fails] at stalls answers
    cases stalls
    obtain ⟨⟨before, rest, whole, length⟩, _, later⟩ := skips
    rw [fails]
    exact ⟨before, c, rest, tokens, whole, length, answers, later⟩

/-- If the rules of the table and of all languages match at the cursor, the run under the lenient policy
never ends with a stall, and is the run under the strict policy unless that ends with one. If it does, the
lenient run emits the same tokens first, and offers the character of the text at the position of the stall
next. If the sink takes that token, it is the next one that is emitted, and else the run ends there. -/
theorem strict_and_lenient_agree_up_to_stall {engine : Engine σ} {table : Table}
    (starts : engine.registry.StartsAtCursor table) {world : World σ}
    (built : world.cache.BuiltFrom engine.registry) (text : List Char) :
    let run (policy : StallPolicy) := ({ table } : Lexer).drive (engine.under policy)
      ⟨.start table text, world⟩
    let watched (policy : StallPolicy) := ({ table } : Lexer).drive (engine.watched.under policy)
      ⟨.start table text, world.watched⟩
    let taken (policy : StallPolicy) := (endOf (watched policy)).world.sink.taken
    (∀ policy, ending (watched policy) = ending (run policy) ∧
      (endOf (watched policy)).world.sink.sink = (endOf (run policy)).world.sink) ∧
    (∀ offset name, (ending (run .lenient)).1 ≠ some (.stall offset name)) ∧
    ((∀ offset name, (ending (run .strict)).1 ≠ some (.stall offset name)) →
      run .lenient = run .strict ∧ taken .lenient = taken .strict) ∧
    ∀ offset name, (ending (run .strict)).1 = some (.stall offset name) →
      taken .strict <+: taken .lenient ∧
      ∃ before c rest, text = before ++ c :: rest ∧ Text.byteLength before = offset ∧
        match engine.emitter.emit (.skipped c) (endOf (run .strict)).world.sink with
        | .ok _ _ => taken .strict ++ [.skipped c] <+: taken .lenient
        | .error message _ =>
          (ending (run .lenient)).1 = some (.emit message) ∧ taken .lenient = taken .strict := by
  intro run watched taken
  have same (policy : StallPolicy) : ending (watched policy) = ending (run policy) ∧
      (endOf (watched policy)).world.sink.sink = (endOf (run policy)).world.sink :=
    watched_drive (engine.under policy) { table } text world
  refine ⟨same, lenient_never_stalls rfl _ text world, fun unstalled => ⟨?_, ?_⟩,
    fun offset name stalls => ?_⟩
  · exact lenient_eq_strict starts built text unstalled
  · have unwatched : ∀ offset name, (ending (watched .strict)).1 ≠ some (.stall offset name) := by
      rw [(same .strict).1]
      exact unstalled
    exact congrArg (fun result => (endOf result).world.sink.taken)
      (@lenient_eq_strict _ engine.watched table starts world.watched built text unwatched)
  · rw [← (same .strict).1] at stalls
    obtain ⟨before, c, rest, tokens, whole, length, answers, later⟩ :=
      answers_of_stall starts built text offset name stalls
    have first : taken .strict = tokens := Watched.taken_of_takings answers
    refine ⟨Watched.taken_prefix ((Watched.prefix_after _ _ _).trans later), before, c, rest, whole,
      length, ?_⟩
    rw [first, ← (same .strict).2]
    cases answer : engine.emitter.emit (.skipped c) (endOf (watched .strict)).world.sink.sink with
    | ok _ sink =>
      have next := Watched.answers_after_of_ok answer
      rw [answers] at next
      have longer : Watched.taken _ = tokens ++ [.skipped c] :=
        Watched.taken_of_takings (next.trans (Watched.takings_append tokens [.skipped c]).symm)
      exact longer ▸ Watched.taken_prefix later
    | error message sink =>
      rw [Watched.answers_after_of_error answer, answers] at later
      rcases answers_of_drive (engine.under .lenient) { table } text world with
        ⟨_, _, _, left⟩ | ⟨front, _, _, _, refusal, _, _, _, _, ends, left⟩
      · exact absurd (congrArg Watched.answers left ▸ later) Watched.not_prefix_of_refusal
      · have lenient_answers := congrArg Watched.answers left
        obtain ⟨rfl, rfl⟩ := Watched.eq_of_refusal (lenient_answers ▸ later)
        exact ⟨(same .lenient).1 ▸ ends, Watched.taken_of_refusal lenient_answers⟩

/-- Both runs hand the letters on, and no rule covers the last of them. -/
theorem strict_and_lenient_agree_up_to_stall_of_sample :
    ∃ table, Sample.numbered.build = .ok table ∧ Sample.registry.StartsAtCursor table ∧
      TableCache.BuiltFrom Sample.registry {} ∧
      let engine : Engine Collector := .collecting Sample.registry {}
      let world : World Collector := { sink := {} }
      let taken (policy : StallPolicy) := (endOf (({ table } : Lexer).drive (engine.watched.under policy)
        ⟨.start table "12abc".toList, world.watched⟩)).world.sink.taken
      (ending (({ table } : Lexer).drive (engine.under .strict)
        ⟨.start table "12abc".toList, world⟩)).1 = some (.stall 4 rootName) ∧
      taken .strict <+: taken .lenient ∧
      ∃ before c rest, "12abc".toList = before ++ c :: rest ∧ Text.byteLength before = 4 := by
  have stalls : (Sample.numbered.build.toOption.map fun table =>
      (ending (({ table } : Lexer).drive ((Engine.collecting Sample.registry {}).under .strict)
        ⟨.start table "12abc".toList, { sink := {} }⟩)).1) = some (some (.stall 4 rootName)) := by
    decide +kernel
  cases build : Sample.numbered.build with
  | error => rw [build] at stalls; cases stalls
  | ok table =>
    rw [build] at stalls
    have stalls := Option.some.inj stalls
    have starts := Sample.startsAtCursor build
    obtain ⟨_, _, _, parted⟩ := @strict_and_lenient_agree_up_to_stall _
      (.collecting Sample.registry {}) table starts { sink := {} } TableCache.builtFrom_empty
      "12abc".toList
    obtain ⟨earlier, before, c, rest, whole, length, _⟩ := parted 4 rootName stalls
    exact ⟨table, rfl, starts, TableCache.builtFrom_empty, stalls, earlier, before, c, rest, whole,
      length⟩

end TableLexer
