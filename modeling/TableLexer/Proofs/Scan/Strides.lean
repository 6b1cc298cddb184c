/-
**The strides of a cursor.**

Where rules match at the cursor, the cursor stands between two characters of its text at all times: a step
moves it over the match of the chosen rule, or over the character that it skips. So no run comes to misuse
its scan, and one that succeeds has taken its text stride by stride, up to the end.

* `Scan.At`: the cursor stands between two characters, and the rest of the text is ahead.
* `Lexer.Stride`, `exists_stride`: over what a step moves the cursor.
* `Scan.At.step`, `at_operate`, `at_of_reaches`: the cursor stays between characters.
* `not_isMisuse_of_raises`: a run whose cursor is there is not misused.
* `Walks`, `exists_walks`: the strides of a run.
* `cursors_stay_sound`: what is said of the cursors of all nested runs.
-/

import Mathlib.Algebra.Ring.Nat
import TableLexer.Proofs.Scan.Replayed

namespace TableLexer

open Step

variable {σ : Type} {engine : Engine σ} {nested : Option (NestedRun σ)} {lexer child : Lexer}
  {outermost : Table} {scan : Scan} {run next last : Run σ} {text rest : List Char} {bytes : Nat}

/-! ### Where the cursor stands -/

/-- The cursor stands between two characters of the text, or at one of its ends, and what is behind it is
ahead. -/
def Scan.At (scan : Scan) (text : List Char) : Prop :=
  ∃ front rest, text = front ++ rest ∧ Text.byteLength front = scan.cursor ∧ scan.ahead = some rest

namespace Scan.At

theorem start (table : Table) (text : List Char) : (Scan.start table text).At text :=
  ⟨[], text, rfl, rfl, rfl⟩

theorem cursor_le (there : scan.At text) : scan.cursor ≤ Text.byteLength text := by
  obtain ⟨front, rest, rfl, cursor, _⟩ := there
  rw [Text.byteLength_append, cursor]
  exact Nat.le_add_right _ _

theorem cursor_eq (there : scan.At text) (finished : scan.isDone = true) :
    scan.cursor = Text.byteLength text := by
  obtain ⟨front, rest, rfl, cursor, ahead⟩ := there
  unfold isDone at finished
  rw [ahead] at finished
  obtain rfl : rest = [] := Option.some.inj (eq_of_beq finished)
  rw [List.append_nil, cursor]

/-- A cursor that moves over bytes that can be dropped comes to stand between characters again. -/
theorem move (there : scan.At text) (ahead : scan.ahead = some rest) {later : List Char}
    (dropped : Text.dropBytes? rest bytes = some later) {other : Scan}
    (moved : other.cursor = scan.cursor + bytes) (left : other.ahead = some later) : other.At text := by
  obtain ⟨front, _, rfl, cursor, same⟩ := there
  obtain rfl : rest = _ := Option.some.inj (ahead.symm.trans same)
  obtain ⟨middle, rfl, length⟩ := Text.exists_of_dropBytes? dropped
  refine ⟨front ++ middle, later, (List.append_assoc _ _ _).symm, ?_, left⟩
  rw [Text.byteLength_append, cursor, length, moved]

theorem of_samePlace {other : Run σ} (there : run.scan.At text) (same : SamePlace run other) :
    other.scan.At text := by
  obtain ⟨front, rest, whole, cursor, ahead⟩ := there
  exact ⟨front, rest, whole, cursor.trans same.1.symm, same.2.trans ahead⟩

end Scan.At

/-! ### Over what a step moves the cursor -/

/-- Where this text is ahead of the scan, a step moves the cursor over so many bytes. -/
inductive Lexer.Stride (lexer : Lexer) (options : Options) (scan : Scan) (rest : List Char) : Nat → Prop
  /-- These are the bytes of the match of the chosen rule, which starts at the cursor and, like its groups,
  starts and ends between characters. -/
  | matched {selection : Selection}
      (chosen : (lexer.table.state scan.stack.top).select rest = some selection)
      (starts : selection.found.span.start = 0) (within : selection.found.Within rest) :
      Stride lexer options scan rest selection.found.length
  /-- No rule is chosen, and these are the bytes of the character at the cursor. -/
  | skipped {c : Char} {more : List Char} (lenient : options.stall = .lenient)
      (stalls : (lexer.table.state scan.stack.top).select rest = none) (first : rest = c :: more) :
      Stride lexer options scan rest c.utf8Size

/-- A stride ends between two characters of the text. -/
theorem Lexer.Stride.exists_later {options : Options} (stride : lexer.Stride options scan rest bytes) :
    ∃ later, Text.dropBytes? rest bytes = some later := by
  cases stride with
  | @matched selection chosen starts within =>
    obtain ⟨first, middle, last, rfl, start, stop⟩ := within 0 _ rfl
    obtain rfl : first = [] := Text.byteLength_eq_zero.mp (start.symm.trans starts)
    refine ⟨last, ?_⟩
    have length : selection.found.length = Text.byteLength middle := by
      unfold Pattern.Match.length
      rw [starts, stop]
      exact Nat.zero_add _
    rw [length]
    exact Text.dropBytes?_byteLength_append middle last
  | @skipped c more _ _ first =>
    subst first
    exact ⟨more, (Text.dropBytes?_cons c more 0).trans (Text.dropBytes?_zero more)⟩

theorem Lexer.stride_of_intent (starts : engine.registry.StartsAtCursor outermost)
    (belongs : engine.registry.Serves outermost lexer.table) {options : Options} {deeds : List Deed}
    (intent : lexer.intent options scan rest = .go deeds bytes) :
    lexer.Stride options scan rest bytes := by
  unfold Lexer.intent at intent
  dsimp only at intent
  split at intent
  · rename_i stalls
    split at intent
    · cases intent
    · cases intent
    · rename_i lenient
      cases intent
      exact .skipped lenient stalls rfl
  · rename_i selection chosen
    cases intent
    obtain ⟨_, found, _⟩ := exists_of_select chosen
    exact .matched chosen (starts.start_of_select belongs chosen)
      (selection.rule.regex.within_of_find? found)

section Strides

variable (starts : engine.registry.StartsAtCursor outermost)
include starts

/-- A step that succeeds makes a stride. -/
theorem exists_stride (belongs : engine.registry.Serves outermost lexer.table)
    (stepped : step engine nested lexer run = .ok () next) :
    ∃ rest bytes, run.scan.ahead = some rest ∧ lexer.Stride engine.options run.scan rest bytes ∧
      0 < bytes ∧ next.scan.cursor = run.scan.cursor + bytes ∧
      next.scan.ahead = Text.dropBytes? rest bytes := by
  obtain ⟨rest, deeds, bytes, middle, ahead, intent, done, rfl⟩ := step_eq_ok_iff.mp stepped
  obtain ⟨cursor, same⟩ := samePlace_of_enactAll done
  have still : middle.scan.ahead = some rest := same.trans ahead
  refine ⟨rest, bytes, ahead, Lexer.stride_of_intent starts belongs intent,
    Lexer.pos_of_intent intent, congrArg (· + bytes) cursor, ?_⟩
  show middle.scan.ahead.bind (Text.dropBytes? · bytes) = _
  rw [still]
  rfl

/-- A step leaves the cursor between characters, whether it succeeds or fails. -/
theorem Scan.At.step (belongs : engine.registry.Serves outermost lexer.table) (there : run.scan.At text) :
    (endOf (step engine nested lexer run)).scan.At text := by
  cases stepped : TableLexer.step engine nested lexer run with
  | ok _ next =>
    obtain ⟨rest, bytes, ahead, stride, _, moved, left⟩ := exists_stride starts belongs stepped
    obtain ⟨later, dropped⟩ := stride.exists_later
    exact there.move ahead dropped moved (left.trans dropped)
  | error error after =>
    rcases step_eq_error_iff.mp stepped with ⟨_, _, rfl⟩ | ⟨_, _, ⟨_, rfl⟩ | ⟨deeds, _, _, failed⟩⟩
    · exact there
    · exact there.of_samePlace ⟨rfl, rfl⟩
    · have stays : Stays (enactAll engine nested lexer deeds) := stays_enactAll lexer deeds
      have place := stays run.counted
      rw [failed] at place
      exact there.of_samePlace place

/-- Operations leave the cursor between characters, also those that fail. -/
theorem at_operate (belongs : engine.registry.Serves outermost lexer.table) (there : run.scan.At text)
    (program : List Operation) : (lexer.operate engine program run).2.scan.At text := by
  have keeps (run : Run σ) (there : run.scan.At text) : (endOf (lexer.step engine run)).scan.At text :=
    there.step starts belongs
  exact Lexer.keeps_operate keeps program there

/-- What a run comes through has its cursors between characters. -/
theorem at_of_reaches (belongs : engine.registry.Serves outermost lexer.table)
    (built : run.world.cache.BuiltFrom engine.registry) (there : run.scan.At text)
    (reaches : Reaches engine lexer run child last) : ∃ piece, last.scan.At piece := by
  induction reaches with
  | start => exact ⟨text, there⟩
  | @step child before after reached _ stepped ih =>
    obtain ⟨piece, there⟩ := ih
    have kept : (endOf (child.step engine before)).scan.At piece :=
      there.step starts (served_of_reaches belongs built reached).1
    rw [stepped] at kept
    exact ⟨piece, kept⟩
  | nest => exact ⟨_, .start _ _⟩

end Strides

/-! ### No misuse -/

/-- A run whose cursor stands between characters and not at the end raises no error that marks a misuse. -/
theorem not_isMisuse_of_raises {error : ScanError} (there : run.scan.At text)
    (unfinished : run.scan.isDone = false) (raises : Raises engine lexer run error) :
    error.isMisuse = false := by
  cases raises with
  | inside nothing =>
    obtain ⟨_, rest, _, _, ahead⟩ := there
    cases nothing.symm.trans ahead
  | intent ahead fails =>
    obtain ⟨_, ⟨_, rfl⟩ | ⟨nothing, _⟩⟩ := Lexer.exists_of_intent_fail fails
    · rfl
    · exact absurd nothing (Scan.ne_nil_of_ahead ahead unfinished)
  | deed _ fails => cases fails <;> rfl

section Misuse

variable (starts : engine.registry.StartsAtCursor outermost)
  (belongs : engine.registry.Serves outermost lexer.table)
  (built : run.world.cache.BuiltFrom engine.registry) (there : run.scan.At text)
include starts belongs built there

/-- No step of a scan that is not done fails by a misuse, of this scan or of a nested one. -/
theorem not_isMisuse_of_step {error : ScanError} (unfinished : run.scan.isDone = false)
    (failed : lexer.step engine run = .error error last) : error.isMisuse = false := by
  obtain ⟨inner, here, works, raises⟩ := exists_worksIn failed
  obtain ⟨reaches, undone⟩ := works.reaches unfinished
  obtain ⟨piece, placed⟩ := at_of_reaches starts belongs built there reaches
  exact not_isMisuse_of_raises placed undone raises

/-- No run fails by a misuse, of its own scan or of a nested one. -/
theorem not_isMisuse_of_drive {error : ScanError} (failed : lexer.drive engine run = .error error last) :
    error.isMisuse = false := by
  obtain ⟨inner, here, reaches, undone, raises⟩ := exists_reaches_of_drive_error failed
  obtain ⟨piece, placed⟩ := at_of_reaches starts belongs built there reaches
  exact not_isMisuse_of_raises placed undone raises

end Misuse

/-! ### Stride by stride -/

/-- The run takes strides over so many bytes, one a step, up to the last state. -/
inductive Walks (engine : Engine σ) (lexer : Lexer) (start : Run σ) : List Nat → Run σ → Prop where
  | start : Walks engine lexer start [] start
  | stride {strides : List Nat} {bytes : Nat} {rest : List Char} {run next : Run σ}
      (walked : Walks engine lexer start strides run) (unfinished : run.scan.isDone = false)
      (stepped : lexer.step engine run = .ok () next) (ahead : run.scan.ahead = some rest)
      (stride : lexer.Stride engine.options run.scan rest bytes)
      (moved : next.scan.cursor = run.scan.cursor + bytes) :
      Walks engine lexer start (strides ++ [bytes]) next

/-- The strides add up to the way of the cursor. -/
theorem Walks.cursor_eq {strides : List Nat} (walked : Walks engine lexer run strides last) :
    run.scan.cursor + strides.sum = last.scan.cursor := by
  induction walked with
  | start => rfl
  | stride _ _ _ _ _ moved ih => rw [List.sum_append_nat, List.sum_singleton, ← Nat.add_assoc, ih, moved]

theorem exists_walks (starts : engine.registry.StartsAtCursor outermost)
    (belongs : engine.registry.Serves outermost lexer.table) (passed : Passes engine lexer run last) :
    ∃ strides, Walks engine lexer run strides last := by
  induction passed with
  | start => exact ⟨[], .start⟩
  | step _ unfinished stepped ih =>
    obtain ⟨strides, walked⟩ := ih
    obtain ⟨rest, bytes, ahead, stride, _, moved, _⟩ := exists_stride starts belongs stepped
    exact ⟨strides ++ [bytes], walked.stride unfinished stepped ahead stride moved⟩

/-- Where rules match at the cursor, and whatever operations were done on a scan, nested or not: its cursor
stands between two characters of its text, and the topmost state is one of its table. While it is not done, no
step misuses a scan, and one that succeeds moves the cursor over the match of the chosen rule, or over the
character that it skips. A run that succeeds comes to the end of the text, by strides that add up to all that
was left. -/
theorem cursors_stay_sound (engine : Engine σ) {table : Table}
    (starts : engine.registry.StartsAtCursor table) (described : table.Built) {text piece : List Char}
    {world before : World σ} (built : world.cache.BuiltFrom engine.registry) {child : Lexer}
    (begins : Begins engine { table } ⟨.start table text, world⟩ child piece before)
    (program : List Operation) :
    let last := (child.operate engine program ⟨.start child.table piece, before⟩).2
    last.scan.At piece ∧ last.scan.cursor ≤ Text.byteLength piece ∧
    last.scan.stack.top.index < child.table.states.length ∧
    (last.scan.isDone = false → ∀ error after, child.step engine last = .error error after →
      error.isMisuse = false) ∧
    (∀ error after, child.drive engine last = .error error after → error.isMisuse = false) ∧
    (∀ next, child.step engine last = .ok () next → ∃ rest bytes, last.scan.ahead = some rest ∧
      child.Stride engine.options last.scan rest bytes ∧ 0 < bytes ∧
      next.scan.cursor = last.scan.cursor + bytes) ∧
    ∀ next, child.drive engine last = .ok () next → next.scan.cursor = Text.byteLength piece ∧
      ∃ strides, Walks engine child last strides next ∧
        last.scan.cursor + strides.sum = Text.byteLength piece := by
  intro last
  have outermost : engine.registry.Serves table ({ table } : Lexer).table := .inl rfl
  obtain ⟨belongs, first⟩ := begins.served outermost built
  have there : last.scan.At piece := at_operate starts belongs (.start child.table piece) program
  have kept : last.world.cache.BuiltFrom engine.registry :=
    Lexer.keeps_operate (carries_lexerStep (drift_builtFrom engine) child) program first
  have bears : child.table.Bears last.scan.stack :=
    bears_operate (belongs.built described) piece before program
  refine ⟨there, there.cursor_le, bears.owns _ List.mem_cons_self, ?_, ?_, ?_, ?_⟩
  · exact fun unfinished _ _ => not_isMisuse_of_step starts belongs kept there unfinished
  · exact fun _ _ => not_isMisuse_of_drive starts belongs kept there
  · intro next stepped
    obtain ⟨rest, bytes, ahead, stride, some_bytes, moved, _⟩ := exists_stride starts belongs stepped
    exact ⟨rest, bytes, ahead, stride, some_bytes, moved⟩
  · intro next driven
    obtain ⟨passed, finished⟩ := drive_eq_ok_iff.mp driven
    have placed : (endOf (child.drive engine last)).scan.At piece :=
      at_operate starts belongs there [.drive]
    rw [driven] at placed
    have ends : next.scan.cursor = Text.byteLength piece := placed.cursor_eq finished
    obtain ⟨strides, walked⟩ := exists_walks starts belongs passed
    exact ⟨ends, strides, walked, walked.cursor_eq.trans ends⟩

/-- A number, a character that no rule covers, of two bytes, and a number. -/
theorem cursors_stay_sound_of_sample :
    ∃ table, Sample.registry.StartsAtCursor table ∧ table.Built ∧
      TableCache.BuiltFrom Sample.registry {} ∧
      let engine : Engine Collector := .collecting Sample.registry { stall := .lenient }
      let start : Run Collector := ⟨.start table "1é2".toList, { sink := {} }⟩
      ∃ next, Lexer.drive engine { table } start = .ok () next ∧ next.scan.cursor = 4 ∧
        ∃ strides, Walks engine { table } start strides next ∧ strides.sum = 4 := by
  have checked : (Sample.numbered.build.toOption.any fun table =>
      (ending (Lexer.drive (.collecting Sample.registry { stall := .lenient }) { table }
        ⟨.start table "1é2".toList, { sink := {} }⟩)).1 == none) = true := by decide +kernel
  cases build : Sample.numbered.build with
  | error => rw [build] at checked; cases checked
  | ok table =>
    rw [build] at checked
    let engine : Engine Collector := .collecting Sample.registry { stall := .lenient }
    let start : Run Collector := ⟨.start table "1é2".toList, { sink := {} }⟩
    have ends : (ending (Lexer.drive engine { table } start)).1 = none := eq_of_beq checked
    cases driven : Lexer.drive engine { table } start with
    | error => rw [driven] at ends; cases ends
    | ok _ next =>
      have starts := Sample.startsAtCursor build
      have described : table.Built := ⟨_, _, build⟩
      have begins : Begins engine { table } start { table } "1é2".toList { sink := {} } := .first
      obtain ⟨_, _, _, _, _, _, ends⟩ :=
        cursors_stay_sound engine starts described TableCache.builtFrom_empty begins []
      obtain ⟨cursor, strides, walked, sum⟩ := ends next driven
      exact ⟨table, starts, described, TableCache.builtFrom_empty, next, driven, cursor, strides, walked,
        (Nat.zero_add _).symm.trans sum⟩

end TableLexer
