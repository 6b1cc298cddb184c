/-
**The scans that a run comes through.**

What a run does next depends on its scan alone, and on its sink only if that refuses a token. So a run that
succeeds comes through the same scans whichever sink takes its tokens.

* `passes_iff`: a run comes through where it is, and through what it comes through after a step.
* `exists_listed`, `exists_sent`: a run into a sink and the run into a list come through the same scans.
* `exists_passes_collecting_iff`: what holds of a scan that the one comes through, holds of one that the other
  comes through.
-/

import TableLexer.Proofs.Scan.Driven
import TableLexer.Proofs.Scan.Watched

namespace TableLexer

open Step

variable {σ : Type} {engine : Engine σ} {lexer : Lexer} {start run next last : Run σ}

/-- A run comes through where it is, and through what it comes through after its next step. -/
theorem passes_iff :
    Passes engine lexer start run ↔
      run = start ∨ start.scan.isDone = false ∧ ∃ next, lexer.step engine start = .ok () next ∧
        Passes engine lexer next run := by
  constructor
  · intro passed
    induction passed with
    | start => exact .inl rfl
    | @step run next _ unfinished stepped earlier =>
      rcases earlier with rfl | ⟨undone, first, begun, later⟩
      · exact .inr ⟨unfinished, next, stepped, .start⟩
      · exact .inr ⟨undone, first, begun, later.step unfinished stepped⟩
  · rintro (rfl | ⟨undone, first, begun, later⟩)
    · exact .start
    · exact (Passes.start.step undone begun).trans later

/-! ### Into a sink and into a list -/

section Fed

variable {sink : σ} {listed seen : Run Collector}

/-- The engine with a list for its sink. -/
def Engine.listing (engine : Engine σ) : Engine Collector := .collecting engine.registry engine.options

/-- The next step into the sink and the one into the list go in lockstep. -/
theorem abreast_fed (runs : (Lockstep.fed engine sink).Runs run listed)
    (unfinished : listed.scan.isDone = false) :
    (Lockstep.fed engine sink).Abreast (lexer.step engine run) (lexer.step engine.listing listed) :=
  Lockstep.abreast_step
    ((Lockstep.fed engine sink).nestings_nestedRun (Nat.le_refl _) fun _ => rfl) trivial runs
    (fun _ _ => trivial) unfinished

theorem scan_of_fed (runs : (Lockstep.fed engine sink).Runs run listed) : run.scan = listed.scan :=
  runs.scan.trans listed.scan.deepened_zero

/-- The run into a list comes to where the run into the sink comes. -/
theorem exists_listed (runs : (Lockstep.fed engine sink).Runs start listed)
    (passed : Passes engine lexer start run) :
    ∃ seen, Passes engine.listing lexer listed seen ∧ (Lockstep.fed engine sink).Runs run seen := by
  induction passed with
  | start => exact ⟨listed, .start, runs⟩
  | @step run next _ unfinished stepped earlier =>
    obtain ⟨seen, passed, runs⟩ := earlier
    have undone : seen.scan.isDone = false := scan_of_fed runs ▸ unfinished
    have abreast : (Lockstep.fed engine sink).Abreast (lexer.step engine run)
        (lexer.step engine.listing seen) := abreast_fed runs undone
    rw [stepped] at abreast
    generalize result : lexer.step engine.listing seen = ended at abreast
    cases abreast with
    | ok runs => exact ⟨_, passed.step undone result, runs⟩

/-- A run into a sink that succeeds comes to where the run into the list comes. -/
theorem exists_sent (succeeds : lexer.drive engine start = .ok () last)
    (runs : (Lockstep.fed engine sink).Runs start listed)
    (passed : Passes engine.listing lexer listed seen) :
    ∃ run, Passes engine lexer start run ∧ (Lockstep.fed engine sink).Runs run seen := by
  induction passed with
  | start => exact ⟨start, .start, runs⟩
  | @step seen next _ undone stepped earlier =>
    obtain ⟨run, passed, runs⟩ := earlier
    have unfinished : run.scan.isDone = false := scan_of_fed runs ▸ undone
    have abreast : (Lockstep.fed engine sink).Abreast (lexer.step engine run)
        (lexer.step engine.listing seen) := abreast_fed runs undone
    rw [stepped] at abreast
    generalize result : lexer.step engine run = ended at abreast
    cases abreast with
    | ok runs => exact ⟨_, passed.step unfinished result, runs⟩
    | parted =>
      -- A step into the sink that fails would make the whole run fail.
      rw [drive_eq_of_passes passed, Lexer.drive_of_error unfinished result] at succeeds
      cases succeeds

end Fed

/-- What holds of some scan that a run into a sink comes through, if it succeeds, holds of some that the run
into a list comes through. -/
theorem exists_passes_collecting_iff (holds : Scan → Prop) {text : List Char} {world : World σ}
    {metrics : Metrics} (succeeds : (lexer.run engine text world).result = .ok metrics) :
    (∃ run, Passes engine lexer ⟨.start lexer.table text, world⟩ run ∧ holds run.scan) ↔
      ∃ run, Passes engine.listing lexer ⟨.start lexer.table text, world.collecting⟩ run ∧
        holds run.scan := by
  have runs : (Lockstep.fed engine world.sink).Runs ⟨.start lexer.table text, world⟩
      ⟨.start lexer.table text, world.collecting⟩ := ⟨rfl, rfl, rfl, rfl, rfl⟩
  have driven : ∃ last, lexer.drive engine ⟨.start lexer.table text, world⟩ = .ok () last := by
    unfold Lexer.run at succeeds
    split at succeeds
    · rename_i last driven
      exact ⟨last, driven⟩
    · cases succeeds
  obtain ⟨last, driven⟩ := driven
  constructor
  · rintro ⟨run, passed, here⟩
    obtain ⟨seen, passed, runs⟩ := exists_listed runs passed
    exact ⟨seen, passed, scan_of_fed runs ▸ here⟩
  · rintro ⟨seen, passed, here⟩
    obtain ⟨run, passed, runs⟩ := exists_sent driven runs passed
    exact ⟨run, passed, (scan_of_fed runs).symm ▸ here⟩

end TableLexer
