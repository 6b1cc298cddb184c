/-
**A run is a step and a run.**

The bytes that are left bound how many steps a run may take. A step that succeeds takes some of them away, so
the bound never is what ends a run: it ends where the text is consumed, or where a step fails.

* `step_eq_ok_iff`, `step_eq_error_iff`: how a step ends.
* `stepsLeft_le_of_enactAll`, `shrinks_step`: a step that succeeds leaves fewer bytes.
* `Lexer.drive_of_done`, `Lexer.drive_of_ok`, `Lexer.drive_of_error`: a run is a step and a run.
* `drive_eq_ok_iff`, `drive_eq_error_iff`: how a run ends.
* `drive_eq_of_passes`: a run may be broken off and taken up again.
* `Lexer.keeps_operate`: what steps keep, operations keep.
-/

import TableLexer.Proofs.Scan.Program
import TableLexer.Proofs.Scan.Raised

namespace TableLexer

open Step

variable {σ : Type} {engine : Engine σ} {nested : Option (NestedRun σ)} {lexer : Lexer}

/-! ### How a step ends -/

/-- A step succeeds if it does its deeds, and then moves the cursor. -/
theorem step_eq_ok_iff {run next : Run σ} :
    step engine nested lexer run = .ok () next ↔
      ∃ text deeds bytes middle, run.scan.ahead = some text ∧
        lexer.intent engine.options run.scan text = .go deeds bytes ∧
        enactAll engine nested lexer deeds run.counted = .ok () middle ∧
        next = ⟨middle.scan.advance bytes, middle.world⟩ := by
  constructor
  · intro stepped
    cases ahead : run.scan.ahead with
    | none => rw [step_of_ahead_none ahead] at stepped; cases stepped
    | some text =>
      rw [step_eq_carryOut ahead] at stepped
      cases intent : lexer.intent engine.options run.scan text with
      | fail error => rw [intent] at stepped; cases stepped
      | go deeds bytes =>
        rw [intent] at stepped
        obtain ⟨_, middle, done, moved⟩ := bind_eq_ok_iff.mp stepped
        cases moved
        exact ⟨text, deeds, bytes, middle, rfl, intent, done, rfl⟩
  · rintro ⟨text, deeds, bytes, middle, ahead, intent, done, rfl⟩
    rw [step_eq_carryOut ahead, intent]
    exact bind_eq_ok_iff.mpr ⟨(), middle, done, rfl⟩

/-- A step fails inside a character, where it intends to, or where one of its deeds does. -/
theorem step_eq_error_iff {run after : Run σ} {error : ScanError} :
    step engine nested lexer run = .error error after ↔
      run.scan.ahead = none ∧ error = .insideCharacter (lexer.base + run.scan.cursor) ∧ after = run ∨
      ∃ text, run.scan.ahead = some text ∧
        (lexer.intent engine.options run.scan text = .fail error ∧ after = run.counted ∨
          ∃ deeds bytes, lexer.intent engine.options run.scan text = .go deeds bytes ∧
            enactAll engine nested lexer deeds run.counted = .error error after) := by
  constructor
  · intro failed
    cases ahead : run.scan.ahead with
    | none =>
      rw [step_of_ahead_none ahead] at failed
      cases failed
      exact .inl ⟨rfl, rfl, rfl⟩
    | some text =>
      rw [step_eq_carryOut ahead] at failed
      refine .inr ⟨text, rfl, ?_⟩
      cases intent : lexer.intent engine.options run.scan text with
      | fail other =>
        rw [intent] at failed
        cases failed
        exact .inl ⟨rfl, rfl⟩
      | go deeds bytes =>
        rw [intent] at failed
        rcases bind_eq_error_iff.mp failed with fails | ⟨_, _, _, moved⟩
        · exact .inr ⟨deeds, bytes, rfl, fails⟩
        · cases moved
  · rintro (⟨inside, rfl, rfl⟩ | ⟨text, ahead, ⟨fails, rfl⟩ | ⟨deeds, bytes, intent, fails⟩⟩)
    · exact step_of_ahead_none inside
    · rw [step_eq_carryOut ahead, fails]
      rfl
    · rw [step_eq_carryOut ahead, intent]
      exact bind_eq_error_iff.mpr (.inl fails)

/-! ### What a step leaves -/

/-- A match ends within its text. -/
theorem Pattern.Regex.stop_le_of_find? {regex : Pattern.Regex} {text : List Char}
    {found : Pattern.Match} (found_here : regex.find? text = some found) :
    found.span.stop ≤ Text.byteLength text := by
  obtain ⟨first, middle, last, rfl, _, stop⟩ := regex.within_of_find? found_here 0 _ rfl
  rw [stop, Text.byteLength_append, Text.byteLength_append]
  omega

/-- A step never intends to move the cursor beyond the text. -/
theorem Lexer.le_of_intent {options : Options} {scan : Scan} {text : List Char} {deeds : List Deed}
    {bytes : Nat} (intent : lexer.intent options scan text = .go deeds bytes) :
    bytes ≤ Text.byteLength text := by
  unfold Lexer.intent at intent
  dsimp only at intent
  split at intent
  · split at intent
    · cases intent
    · cases intent
    · cases intent
      exact Nat.le_add_right _ _
  · rename_i selection chosen
    cases intent
    obtain ⟨_, found, _⟩ := exists_of_select chosen
    exact Nat.le_trans (Nat.sub_le _ _) (Pattern.Regex.stop_le_of_find? found)

/-- A scan is done when no bytes are left. -/
theorem Scan.isDone_iff {scan : Scan} : scan.isDone = true ↔ scan.stepsLeft = 0 := by
  unfold isDone stepsLeft
  cases ahead : scan.ahead with
  | none => simp
  | some text => simp [Text.byteLength_eq_zero]

/-- To move the cursor over bytes leaves as many fewer. -/
theorem Scan.stepsLeft_advance_le {scan : Scan} {text : List Char} {bytes : Nat}
    (ahead : scan.ahead = some text) (within : bytes ≤ Text.byteLength text) :
    (scan.advance bytes).stepsLeft + bytes ≤ scan.stepsLeft := by
  unfold stepsLeft advance
  rw [ahead]
  dsimp only [Option.bind_some]
  cases left : Text.dropBytes? text bytes with
  | some rest =>
    have := Text.byteLength_of_dropBytes? left
    simp only [Option.map_some, Option.getD_some]
    omega
  | none =>
    -- To drop all bytes leaves a text, if an empty one, so these are fewer.
    have all : Text.dropBytes? text (Text.byteLength text) = some [] := by
      have := Text.dropBytes?_byteLength_append text []
      rwa [List.append_nil] at this
    have fewer : bytes ≠ Text.byteLength text := by
      rintro rfl
      cases left.symm.trans all
    simp only [Option.map_some, Option.map_none, Option.getD_some, Option.getD_none]
    omega

/-- What a step does before it moves the cursor leaves the cursor where it was. -/
theorem samePlace_of_enactAll {deeds : List Deed} {run middle : Run σ}
    (done : enactAll engine nested lexer deeds run.counted = .ok () middle) : SamePlace run middle := by
  have stays : Stays (enactAll engine nested lexer deeds) := stays_enactAll lexer deeds
  have place := stays run.counted
  rw [done] at place
  exact place

/-- A step that moves the cursor over bytes leaves as many fewer. -/
theorem stepsLeft_le_of_enactAll {deeds : List Deed} {bytes : Nat} {run middle : Run σ} {text : List Char}
    (ahead : run.scan.ahead = some text)
    (intent : lexer.intent engine.options run.scan text = .go deeds bytes)
    (done : enactAll engine nested lexer deeds run.counted = .ok () middle) :
    (middle.scan.advance bytes).stepsLeft + bytes ≤ run.scan.stepsLeft := by
  have still : middle.scan.ahead = run.scan.ahead := (samePlace_of_enactAll done).2
  have same : middle.scan.stepsLeft = run.scan.stepsLeft := by
    unfold Scan.stepsLeft
    rw [still]
  rw [← same]
  exact Scan.stepsLeft_advance_le (still.trans ahead) (Lexer.le_of_intent intent)

/-- The step leaves fewer bytes whenever it succeeds. -/
def Step.Shrinks (step : StepM σ Unit) : Prop :=
  ∀ run next, step run = .ok () next → next.scan.stepsLeft < run.scan.stepsLeft

/-- A step that succeeds leaves fewer bytes. -/
theorem shrinks_step : Shrinks (step engine nested lexer) := by
  intro run next stepped
  obtain ⟨text, deeds, bytes, middle, ahead, intent, done, rfl⟩ := step_eq_ok_iff.mp stepped
  have some_bytes := Lexer.pos_of_intent intent
  have fewer := stepsLeft_le_of_enactAll ahead intent done
  show (middle.scan.advance bytes).stepsLeft < _
  omega

/-! ### What a run does first -/

section Drive

variable {step : StepM σ Unit} {run next last : Run σ}

/-- Where no step is left over, more of them may be allowed. -/
theorem Step.Shrinks.repeatStep_eq (shrinks : Shrinks step) {bound other : Nat}
    (enough : run.scan.stepsLeft ≤ bound) (more : bound ≤ other) :
    repeatStep step other run = repeatStep step bound run := by
  induction bound generalizing other run with
  | zero =>
    have done : run.scan.isDone = true := Scan.isDone_iff.mpr (Nat.le_zero.mp enough)
    cases other with
    | zero => rfl
    | succ other => rw [repeatStep, repeatStep, if_pos done]
  | succ bound ih =>
    obtain ⟨other, rfl⟩ := Nat.exists_eq_add_of_le' (Nat.le_trans (Nat.succ_pos bound) more)
    rw [repeatStep, repeatStep]
    split
    · rfl
    · cases stepped : step run with
      | error => rfl
      | ok _ next =>
        have fewer := shrinks run next stepped
        exact ih (by omega) (Nat.le_of_succ_le_succ more)

theorem driveWith_of_done (done : run.scan.isDone = true) : driveWith step run = .ok () run := by
  unfold driveWith
  rw [Scan.isDone_iff.mp done]
  rfl

theorem driveWith_of_error (unfinished : run.scan.isDone = false) {error : ScanError}
    (failed : step run = .error error last) : driveWith step run = .error error last := by
  obtain ⟨bound, left⟩ := Nat.exists_eq_add_of_lt <| Nat.pos_of_ne_zero fun none_left =>
    Bool.eq_false_iff.mp unfinished (Scan.isDone_iff.mpr none_left)
  unfold driveWith
  rw [left, Nat.zero_add, repeatStep, if_neg (Bool.eq_false_iff.mp unfinished), failed]

theorem Step.Shrinks.driveWith_of_ok (shrinks : Shrinks step) (unfinished : run.scan.isDone = false)
    (stepped : step run = .ok () next) : driveWith step run = driveWith step next := by
  have fewer := shrinks run next stepped
  obtain ⟨bound, left⟩ := Nat.exists_eq_add_of_lt (Nat.zero_lt_of_lt fewer)
  unfold driveWith
  rw [left, Nat.zero_add, repeatStep, if_neg (Bool.eq_false_iff.mp unfinished), stepped]
  exact shrinks.repeatStep_eq (Nat.le_refl _) (by omega)

/-- What holds of runs that are done, of runs whose next step fails, and of a run if it holds of what the
next step leaves, holds of all runs. -/
theorem Step.Shrinks.induct (shrinks : Shrinks step) {holds : Run σ → Prop}
    (done : ∀ run, run.scan.isDone = true → holds run)
    (error : ∀ run failure after, run.scan.isDone = false → step run = .error failure after → holds run)
    (ok : ∀ run next, run.scan.isDone = false → step run = .ok () next → holds next → holds run)
    (run : Run σ) : holds run := by
  induction left : run.scan.stepsLeft using Nat.strongRecOn generalizing run with
  | _ bound ih =>
    by_cases finished : run.scan.isDone
    · exact done run finished
    · have unfinished := Bool.eq_false_iff.mpr finished
      cases stepped : step run with
      | error failure after => exact error run failure after unfinished stepped
      | ok _ next =>
        exact ok run next unfinished stepped (ih _ (left ▸ shrinks run next stepped) next rfl)

end Drive

/-! ### How a run ends -/

variable {run next last : Run σ} {error : ScanError}

namespace Lexer

theorem shrinks_step (engine : Engine σ) (lexer : Lexer) : Shrinks (lexer.step engine) :=
  TableLexer.shrinks_step

theorem drive_of_done (done : run.scan.isDone = true) : lexer.drive engine run = .ok () run :=
  driveWith_of_done done

theorem drive_of_ok (unfinished : run.scan.isDone = false) (stepped : lexer.step engine run = .ok () next) :
    lexer.drive engine run = lexer.drive engine next :=
  (lexer.shrinks_step engine).driveWith_of_ok unfinished stepped

theorem drive_of_error (unfinished : run.scan.isDone = false)
    (failed : lexer.step engine run = .error error last) :
    lexer.drive engine run = .error error last :=
  driveWith_of_error unfinished failed

end Lexer

/-- A run may be broken off after any of its steps and taken up again. -/
theorem drive_eq_of_passes (passed : Passes engine lexer run next) :
    lexer.drive engine run = lexer.drive engine next := by
  induction passed with
  | start => rfl
  | step _ unfinished stepped ih => exact ih.trans (Lexer.drive_of_ok unfinished stepped)

theorem Passes.trans (one : Passes engine lexer run next) (other : Passes engine lexer next last) :
    Passes engine lexer run last := by
  induction other with
  | start => exact one
  | step _ unfinished stepped ih => exact .step ih unfinished stepped

/-- A run ends where it has come to the end of its text, or to a step that fails. -/
theorem exists_end (engine : Engine σ) (lexer : Lexer) (run : Run σ) :
    ∃ last, Passes engine lexer run last ∧
      (last.scan.isDone = true ∨
        last.scan.isDone = false ∧ ∃ error after, lexer.step engine last = .error error after) := by
  induction run using (lexer.shrinks_step engine).induct with
  | done run finished => exact ⟨run, .start, .inl finished⟩
  | error run failure after unfinished failed =>
    exact ⟨run, .start, .inr ⟨unfinished, failure, after, failed⟩⟩
  | ok run next unfinished stepped ih =>
    obtain ⟨last, passed, ends⟩ := ih
    exact ⟨last, (Passes.start.step unfinished stepped).trans passed, ends⟩

/-- A run succeeds if it comes to the end of its text. -/
theorem drive_eq_ok_iff :
    lexer.drive engine run = .ok () last ↔
      Passes engine lexer run last ∧ last.scan.isDone = true := by
  constructor
  · intro driven
    obtain ⟨ended, passed, finished | ⟨unfinished, error, after, failed⟩⟩ := exists_end engine lexer run
    · rw [drive_eq_of_passes passed, Lexer.drive_of_done finished] at driven
      cases driven
      exact ⟨passed, finished⟩
    · rw [drive_eq_of_passes passed, Lexer.drive_of_error unfinished failed] at driven
      cases driven
  · rintro ⟨passed, finished⟩
    rw [drive_eq_of_passes passed, Lexer.drive_of_done finished]

/-- A run fails if it comes to a step that fails. -/
theorem drive_eq_error_iff :
    lexer.drive engine run = .error error last ↔
      ∃ before, Passes engine lexer run before ∧ before.scan.isDone = false ∧
        lexer.step engine before = .error error last := by
  constructor
  · exact exists_of_repeatStep_error .start
  · rintro ⟨before, passed, unfinished, failed⟩
    rw [drive_eq_of_passes passed, Lexer.drive_of_error unfinished failed]

/-! ### What operations keep -/

section Operations

variable {holds : Run σ → Prop}

/-- What each step keeps, whether it succeeds or fails, a run keeps. -/
theorem Lexer.keeps_drive (keeps : ∀ run, holds run → holds (endOf (lexer.step engine run)))
    (here : holds run) : holds (endOf (lexer.drive engine run)) := by
  induction run using (lexer.shrinks_step engine).induct with
  | done run finished =>
    rw [drive_of_done finished]
    exact here
  | error run failure after unfinished failed =>
    have kept := keeps run here
    rw [failed] at kept
    rw [drive_of_error unfinished failed]
    exact kept
  | ok run next unfinished stepped ih =>
    have kept := keeps run here
    rw [stepped] at kept
    rw [drive_of_ok unfinished stepped]
    exact ih kept

/-- What each step keeps, whether it succeeds or fails, operations keep. -/
theorem Lexer.keeps_operate (keeps : ∀ run, holds run → holds (endOf (lexer.step engine run)))
    (program : List Operation) (here : holds run) : holds (lexer.operate engine program run).2 := by
  induction program generalizing run with
  | nil => exact here
  | cons operation rest ih =>
    cases operation with
    | step => exact ih (keeps run here)
    | drive => exact ih (Lexer.keeps_drive keeps here)

end Operations

end TableLexer
