/-
**Two limits of depth.**

A run that may nest deeper is the run that may nest less deep, for as long as that goes on: it parts from
it only where the one comes to its limit.

* `Lockstep.raised`: the two runs go in lockstep.
* `raised_or_parted`: they end in the same way, or the one with the lower limit comes to it.
* `raised_limit_extends_run`: what the two runs have in common.
-/

import TableLexer.Proofs.Scan.Counters
import TableLexer.Proofs.Scan.Delegated
import TableLexer.Proofs.Scan.Watched

namespace TableLexer

open Step

variable {σ : Type} (engine : Engine σ) {low high : Nat}

/-- Runs with two limits are the same until the one comes to the lower limit. -/
def Lockstep.raised {engine : Engine σ} (lower : low ≤ high) {drift : World σ → World σ → Prop}
    (drifts : World.Drift (engine.limited high) drift) :
    Lockstep (engine.limited low) (engine.limited high) where
  deeper := 0
  further := 0
  member _ := True
  placed _ _ := True
  worlds world twin := world = twin
  parted error world after := (∃ offset, error = .depthExceeded low offset) ∧ drift world after
  drift := drift
  placement := placement_trivial
  drifts := drifts
  keeps parted later := ⟨parted.1, drifts.trans parted.2 later⟩
  limit := lower
  exceeds := by
    rintro world _ offset _ rfl
    exact ⟨⟨offset, rfl⟩, drifts.refl world⟩
  notes := by
    rintro world _ record rfl
    exact congrArg (world.addRecords [·]) record.moved_zero
  looksUp := by
    rintro world _ name rfl
    exact ⟨rfl, rfl, fun _ _ => trivial⟩
  offers := by
    rintro world _ token rfl
    have same : (engine.limited low).emitter = (engine.limited high).emitter := rfl
    rw [same]
    cases (engine.limited high).emitter.emit token world.sink with
    | ok _ sink => exact rfl
    | error message sink => exact ⟨rfl, rfl⟩
  intends _ _ _ _ _ := .inl (Lexer.intent_moved rfl rfl)

/-- The run with the higher limit is that with the lower one, or goes on where that comes to its limit. -/
theorem raised_or_parted (lower : low ≤ high) {drift : World σ → World σ → Prop}
    (drifts : World.Drift (engine.limited high) drift) (lexer : Lexer) (text : List Char)
    (world : World σ) :
    let lowRun := lexer.drive (engine.limited low) ⟨.start lexer.table text, world⟩
    let highRun := lexer.drive (engine.limited high) ⟨.start lexer.table text, world⟩
    lowRun = highRun ∨ ∃ offset run, lowRun = .error (.depthExceeded low offset) run ∧
      drift run.world (endOf highRun).world := by
  intro lowRun highRun
  let steps := Lockstep.raised lower drifts
  have worlds : steps.worlds world world := rfl
  have abreast : steps.Abreast lowRun highRun :=
    @Lockstep.abreast_drive _ _ _ _ steps lexer trivial text trivial _ _ worlds
  rcases abreast.eq_or_parted rfl rfl id with same | ⟨_, run, fails, ⟨offset, rfl⟩, later⟩
  · exact .inl same
  · exact .inr ⟨offset, run, fails, later⟩

/-- A run that does not come to the lower limit is the run with the higher one. -/
theorem raised_eq_of_not_exceeded (lower : low ≤ high) (lexer : Lexer) (text : List Char)
    (world : World σ)
    (within : ∀ limit offset, (ending (lexer.drive (engine.limited low)
      ⟨.start lexer.table text, world⟩)).1 ≠ some (.depthExceeded limit offset)) :
    lexer.drive (engine.limited high) ⟨.start lexer.table text, world⟩ =
      lexer.drive (engine.limited low) ⟨.start lexer.table text, world⟩ := by
  rcases raised_or_parted engine lower (World.drift_trivial _) lexer text world with
    same | ⟨offset, _, fails, _⟩
  · exact same.symm
  · exact absurd (congrArg (fun result => (ending result).1) fails) (within low offset)

/-- To raise the limit of depth only lets a run go on. If the run with the lower limit does not come to it,
the run with the higher limit is the same, with the same tokens, the same end and the same counters. If it
does, the error names the lower limit, and its tokens are the first of those of the run with the higher
one. No run counts a nested run that is deeper than its own limit. -/
theorem raised_limit_extends_run (lower : low ≤ high) (lexer : Lexer) (text : List Char)
    (world : World σ) :
    let run (limit : Nat) := lexer.drive (engine.limited limit) ⟨.start lexer.table text, world⟩
    let watched (limit : Nat) := lexer.drive (engine.watched.limited limit)
      ⟨.start lexer.table text, world.watched⟩
    let taken (limit : Nat) := (endOf (watched limit)).world.sink.taken
    (∀ limit, ending (watched limit) = ending (run limit) ∧
      (endOf (watched limit)).world.sink.sink = (endOf (run limit)).world.sink) ∧
    ((∀ limit offset, (ending (run low)).1 ≠ some (.depthExceeded limit offset)) →
      run high = run low ∧ taken high = taken low) ∧
    (∀ limit offset, (ending (run low)).1 = some (.depthExceeded limit offset) →
      limit = low ∧ taken low <+: taken high) ∧
    ∀ limit, (ending (run limit)).2.metrics.maxDepth ≤ limit := by
  intro run watched taken
  have same (limit : Nat) : ending (watched limit) = ending (run limit) ∧
      (endOf (watched limit)).world.sink.sink = (endOf (run limit)).world.sink :=
    watched_drive (engine.limited limit) lexer text world
  refine ⟨same, fun within => ⟨raised_eq_of_not_exceeded engine lower lexer text world within, ?_⟩,
    fun limit offset exceeds => ⟨limit_of_drive exceeds, ?_⟩,
    fun limit => maxDepth_le_of_drive (engine.limited limit) lexer text world⟩
  · rw [← (same low).1] at within
    exact congrArg (fun result => (endOf result).world.sink.taken)
      (raised_eq_of_not_exceeded engine.watched lower lexer text world.watched within)
  · have drifts := Watched.drift_answers (engine.limited high)
    rcases raised_or_parted engine.watched lower drifts lexer text world.watched with
      equal | ⟨_, _, fails, later⟩
    · have all : taken low = taken high :=
        congrArg (fun result => (endOf result).world.sink.taken) equal
      exact all ▸ List.prefix_refl (taken low)
    · refine Watched.taken_prefix ?_
      rw [show watched low = _ from fails]
      exact later

/-- A run that may not nest ends where the letters are handed on; deeper than one level it never goes. -/
theorem raised_limit_extends_run_of_sample :
    ∃ table, Sample.numbered.build = .ok table ∧
      let engine : Engine Collector := .collecting Sample.registry {}
      let world : World Collector := { sink := {} }
      let run (limit : Nat) := ({ table } : Lexer).drive (engine.limited limit)
        ⟨.start table "12abc".toList, world⟩
      let taken (limit : Nat) := (endOf (({ table } : Lexer).drive (engine.watched.limited limit)
        ⟨.start table "12abc".toList, world.watched⟩)).world.sink.taken
      (ending (run 0)).1 = some (.depthExceeded 0 2) ∧ taken 0 <+: taken 1 ∧
        (ending (run 1)).1 = some (.stall 4 rootName) ∧ run 2 = run 1 := by
  have checked : (Sample.numbered.build.toOption.any fun table =>
      let engine : Engine Collector := .collecting Sample.registry {}
      let run (limit : Nat) := ({ table } : Lexer).drive (engine.limited limit)
        ⟨.start table "12abc".toList, { sink := {} }⟩
      (ending (run 0)).1 == some (.depthExceeded 0 2) &&
        (ending (run 1)).1 == some (.stall 4 rootName)) = true := by decide +kernel
  cases build : Sample.numbered.build with
  | error => rw [build] at checked; cases checked
  | ok table =>
    rw [build] at checked
    obtain ⟨exceeds, stalls⟩ := (Bool.and_eq_true _ _).mp checked
    have exceeds := eq_of_beq exceeds
    have stalls := eq_of_beq stalls
    let engine : Engine Collector := .collecting Sample.registry {}
    obtain ⟨_, _, parted, _⟩ := raised_limit_extends_run engine (Nat.zero_le 1) { table }
      "12abc".toList { sink := {} }
    obtain ⟨_, equal, _, _⟩ := raised_limit_extends_run engine (Nat.le_succ 1) { table }
      "12abc".toList { sink := {} }
    have within : ∀ limit offset, (ending (({ table } : Lexer).drive (engine.limited 1)
        ⟨.start table "12abc".toList, { sink := {} }⟩)).1 ≠ some (.depthExceeded limit offset) := by
      intro limit offset fails
      cases stalls.symm.trans fails
    exact ⟨table, rfl, exceeds, (parted 0 2 exceeds).2, stalls, (equal within).1⟩

end TableLexer
