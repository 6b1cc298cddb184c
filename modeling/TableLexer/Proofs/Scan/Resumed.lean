/-
**Scans that are under way.**

Patterns see the text ahead and nothing of what was consumed. So a scan that is under way goes on as one that
starts with the same stack where its cursor is: what it did before only adds to the cursor and the counters.

* `Scan.resumed`: a scan that went on from another as a third one did from the start.
* `Step.Commutes`: a part of a step does the same to scans that start and that go on.
* `step_resumed`, `drive_resumed`: so do steps and runs, where the one that starts does so further on.
* `Passes.ahead_eq`: the text ahead is what is left after dropping the bytes up to the cursor.
-/

import TableLexer.Proofs.Scan.Driven
import TableLexer.Proofs.Scan.Moved
import TableLexer.Proofs.Scan.Places

namespace TableLexer

/-! ### What came before -/

/-- The counters of a run and of one that follows. -/
def Metrics.plus (before metrics : Metrics) : Metrics where
  steps := before.steps + metrics.steps
  tokens := before.tokens + metrics.tokens
  delegations := before.delegations + metrics.delegations
  fallbacks := before.fallbacks + metrics.fallbacks
  maxDepth := max before.maxDepth metrics.maxDepth

/-- A scan that went on from the one before as the other one did from the start of its text. -/
def Scan.resumed (before scan : Scan) : Scan where
  cursor := before.cursor + scan.cursor
  ahead := scan.ahead
  stack := scan.stack
  metrics := before.metrics.plus scan.metrics

variable {σ α β : Type}

/-- The run with its scan gone on from the one before. -/
def Run.resumed (before : Scan) (run : Run σ) : Run σ := ⟨before.resumed run.scan, run.world⟩

theorem Metrics.plus_absorb (before metrics child : Metrics) (depth : Nat) :
    (before.plus metrics).absorb child depth = before.plus (metrics.absorb child depth) := by
  simp only [plus, absorb, Nat.add_assoc, Nat.max_assoc]

/-- A scan whose stack is as at the start goes on from itself as one that starts. -/
theorem Scan.eq_resumed_start {scan : Scan} {table : Table} {rest : List Char}
    (back : scan.stack = .new table.root) (ahead : scan.ahead = some rest) :
    scan = scan.resumed (.start table rest) := by
  obtain ⟨cursor, _, _, metrics⟩ := scan
  cases back
  cases ahead
  have same : metrics.plus {} = metrics := by
    simp only [Metrics.plus, Nat.add_zero, Nat.max_zero]
  unfold resumed start
  rw [same]
  rfl

namespace Step

/-- The end of a part of a step, with its scan gone on from the one before. -/
def resumed (before : Scan) : EStateM.Result ScanError (Run σ) α → EStateM.Result ScanError (Run σ) α
  | .ok a run => .ok a (run.resumed before)
  | .error error run => .error error (run.resumed before)

/-- The part of a step does to a scan that goes on what it does to one that starts. -/
def Commutes (before : Scan) (part : StepM σ α) : Prop :=
  ∀ run, part (run.resumed before) = resumed before (part run)

variable {before : Scan}

namespace Commutes

theorem pure (a : α) : Commutes before (Pure.pure a : StepM σ α) := fun _ => rfl

theorem throw (error : ScanError) : Commutes before (MonadExcept.throw error : StepM σ α) := fun _ => rfl

theorem bind {part : StepM σ α} {rest : α → StepM σ β} (first : Commutes before part)
    (later : ∀ a, Commutes before (rest a)) : Commutes before (part >>= rest) := by
  intro run
  have same := first run
  cases done : part run with
  | ok a next =>
    rw [done] at same
    rw [bind_of_ok same, bind_of_ok done]
    exact later a next
  | error error after =>
    rw [done] at same
    rw [bind_of_error same, bind_of_error done]
    rfl

/-- What is done to the scan may be done before or after. -/
theorem changeScan {change : Scan → Scan}
    (same : ∀ scan, change (before.resumed scan) = before.resumed (change scan)) :
    Commutes before (Step.changeScan change : StepM σ Unit) := by
  intro run
  show EStateM.Result.ok () (⟨change (before.resumed run.scan), run.world⟩ : Run σ) = _
  rw [same]
  rfl

theorem count {change : Metrics → Metrics}
    (same : ∀ metrics, change (before.metrics.plus metrics) = before.metrics.plus (change metrics)) :
    Commutes before (Step.count change : StepM σ Unit) :=
  changeScan fun scan => congrArg (fun metrics => { before.resumed scan with metrics }) (same scan.metrics)

theorem note (record : Record) : Commutes before (Step.note record : StepM σ Unit) := fun _ => rfl

theorem emit (engine : Engine σ) (kind : Kind) (text : List Char) :
    Commutes before (Step.emit engine kind text) := by
  unfold Step.emit
  split
  · exact pure ()
  · refine .bind (fun run => ?_) fun _ => .count fun _ => rfl
    have same : (run.resumed before).world = run.world := rfl
    dsimp only
    rw [same]
    cases engine.emitter.emit ⟨kind, String.ofList text⟩ run.world.sink <;> rfl

theorem pop (origin : Nat) : Commutes before (Step.pop origin : StepM σ Unit) := by
  intro run
  have same : (run.resumed before).scan.stack = run.scan.stack := rfl
  unfold Step.pop
  rw [same]
  cases run.scan.stack.pop? <;> rfl

theorem resolve (engine : Engine σ) (lexer : Lexer) (target : Target) :
    Commutes before (Step.resolve engine lexer target) := by
  cases target with
  | current => exact pure _
  | named language =>
    intro run
    have same : (run.resumed before).world = run.world := rfl
    unfold Step.resolve
    dsimp only
    rw [same]
    obtain ⟨outcome, world⟩ := run.world.table engine.registry language
    cases outcome <;> rfl

theorem runNested (nested : NestedRun σ) (child : Lexer) (text : List Char) :
    Commutes before (Step.runNested nested child text) := by
  intro run
  have same : (run.resumed before).world = run.world := rfl
  have absorbed (ended : Run σ) :
      (run.resumed before).scan.count (·.absorb ended.scan.metrics child.depth) =
        before.resumed (run.scan.count (·.absorb ended.scan.metrics child.depth)) :=
    congrArg (fun metrics => { before.resumed run.scan with metrics })
      (before.metrics.plus_absorb run.scan.metrics ended.scan.metrics child.depth)
  unfold Step.runNested
  dsimp only
  rw [same]
  cases nested child text run.world <;> simp only [absorbed] <;> rfl

theorem delegate (engine : Engine σ) (nested : Option (NestedRun σ)) (lexer : Lexer) (target : Target)
    (text : List Char) (offset : Nat) :
    Commutes before (Step.delegate engine nested lexer target text offset) := by
  unfold Step.delegate
  split
  · exact pure ()
  · refine .bind (resolve engine lexer target) fun table => ?_
    cases nested with
    | none => exact throw _
    | some nested => exact .bind (note _) fun _ => runNested nested _ text

theorem enact (engine : Engine σ) (nested : Option (NestedRun σ)) (lexer : Lexer) (deed : Deed) :
    Commutes before (Step.enact engine nested lexer deed) := by
  cases deed with
  | note record => exact note record
  | emit kind text => exact emit engine kind text
  | fallBack => exact count fun _ => rfl
  | push state => exact fun _ => rfl
  | pop origin => exact pop origin
  | delegate target text offset => exact delegate engine nested lexer target text offset

theorem enactAll (engine : Engine σ) (nested : Option (NestedRun σ)) (lexer : Lexer)
    (deeds : List Deed) : Commutes before (Step.enactAll engine nested lexer deeds) := by
  induction deeds with
  | nil => exact pure ()
  | cons deed rest ih => exact .bind (enact engine nested lexer deed) fun _ => ih

theorem carryOut (engine : Engine σ) (nested : Option (NestedRun σ)) (lexer : Lexer) (intent : Intent) :
    Commutes before (intent.carryOut engine nested lexer) := by
  cases intent with
  | fail error => exact throw error
  | go deeds bytes =>
    refine .bind (enactAll engine nested lexer deeds) fun _ => changeScan fun scan => ?_
    exact congrArg (fun cursor => { before.resumed (scan.advance bytes) with cursor })
      (Nat.add_assoc before.cursor scan.cursor bytes)

end Commutes

/-- Where the text of a run starts makes no difference to its deeds, which have their positions. -/
theorem enactAll_further (engine : Engine σ) (nested : Option (NestedRun σ)) (lexer : Lexer)
    (further : Nat) (deeds : List Deed) :
    enactAll engine nested (lexer.moved 0 further) deeds = enactAll engine nested lexer deeds := by
  induction deeds with
  | nil => rfl
  | cons deed rest ih =>
    rw [enactAll, enactAll, ih]
    cases deed <;> rfl

theorem carryOut_further (engine : Engine σ) (nested : Option (NestedRun σ)) (lexer : Lexer)
    (further : Nat) (intent : Intent) :
    intent.carryOut engine nested (lexer.moved 0 further) = intent.carryOut engine nested lexer := by
  cases intent with
  | fail error => rfl
  | go deeds bytes =>
    exact congrArg (· >>= fun _ => changeScan (·.advance bytes))
      (enactAll_further engine nested lexer further deeds)

/-- The deeds of a match have its positions, whichever run it was found in. -/
theorem Site.deeds_lexer (site : Site) (lexer : Lexer) (behavior : Behavior StateId) :
    { site with lexer }.deeds behavior = site.deeds behavior := by
  cases behavior with
  | emit | emitAndPush | emitAndPop | delegate => rfl
  | composite actions =>
    refine congrArg (List.filterMap · actions) (funext fun action => ?_)
    cases action <;> rfl

end Step

open Step

variable {engine : Engine σ} {nested : Option (NestedRun σ)} {lexer : Lexer} {before : Scan}

/-- What a step of a scan that goes on intends is what one of a scan intends that starts further on. -/
theorem Lexer.intent_resumed (options : Options) (scan : Scan) (text : List Char) :
    lexer.intent options (before.resumed scan) text =
      (lexer.moved 0 before.cursor).intent options scan text := by
  let moved := lexer.moved 0 before.cursor
  have origin : lexer.base + (before.resumed scan).cursor = moved.base + scan.cursor :=
    (Nat.add_assoc lexer.base before.cursor scan.cursor).symm
  have state : lexer.table.state (before.resumed scan).stack.top = moved.table.state scan.stack.top := rfl
  have told (selection : Selection) :
      lexer.told options (before.resumed scan) text selection = moved.told options scan text selection := by
    unfold Lexer.told Lexer.site
    rw [origin, state]
    rfl
  have deeds (selection : Selection) (behavior : Behavior StateId) :
      (lexer.site (before.resumed scan) text selection).deeds behavior =
        (moved.site scan text selection).deeds behavior := by
    unfold Lexer.site
    rw [origin]
    exact Step.Site.deeds_lexer ⟨moved, moved.base + scan.cursor, text, selection.found⟩ lexer behavior
  show _ = moved.intent options scan text
  unfold Lexer.intent
  simp only [origin, state, told, deeds]
  rfl

/-- A step of a scan that goes on is one of a scan that starts further on. -/
theorem step_resumed (run : Run σ) :
    step engine nested lexer (run.resumed before) =
      resumed before (step engine nested (lexer.moved 0 before.cursor) run) := by
  have counted : (run.resumed before).counted = run.counted.resumed before := rfl
  cases ahead : run.scan.ahead with
  | none =>
    have inside : (run.resumed before).scan.ahead = none := ahead
    have origin : lexer.base + (run.resumed before).scan.cursor =
        (lexer.moved 0 before.cursor).base + run.scan.cursor :=
      (Nat.add_assoc lexer.base before.cursor run.scan.cursor).symm
    rw [step_of_ahead_none ahead, step_of_ahead_none inside, origin]
    rfl
  | some text =>
    have same : (run.resumed before).scan.ahead = some text := ahead
    have intent : lexer.intent engine.options (run.resumed before).scan text =
        (lexer.moved 0 before.cursor).intent engine.options run.scan text :=
      Lexer.intent_resumed engine.options run.scan text
    rw [step_eq_carryOut ahead, step_eq_carryOut same, counted, carryOut_further, intent]
    exact Commutes.carryOut engine nested lexer _ run.counted

theorem repeatStep_resumed {one other : StepM σ Unit}
    (stepped : ∀ run, one (run.resumed before) = resumed before (other run)) (bound : Nat) (run : Run σ) :
    repeatStep one bound (run.resumed before) = resumed before (repeatStep other bound run) := by
  induction bound generalizing run with
  | zero => rfl
  | succ bound ih =>
    have same : (run.resumed before).scan.isDone = run.scan.isDone := rfl
    rw [repeatStep, repeatStep, same, stepped run]
    split
    · rfl
    · cases other run with
      | ok _ next => exact ih next
      | error => rfl

/-- A run that goes on is one that starts further on. -/
theorem drive_resumed (engine : Engine σ) (lexer : Lexer) (before : Scan) (run : Run σ) :
    lexer.drive engine (run.resumed before) =
      resumed before ((lexer.moved 0 before.cursor).drive engine run) :=
  repeatStep_resumed step_resumed run.scan.stepsLeft run

/-! ### The text ahead -/

/-- Bytes may be dropped all at once. -/
theorem Text.dropBytes?_add {text rest : List Char} {first : Nat}
    (dropped : dropBytes? text first = some rest) (second : Nat) :
    dropBytes? text (first + second) = dropBytes? rest second := by
  obtain ⟨front, rfl, rfl⟩ := exists_of_dropBytes? dropped
  clear dropped
  induction front with
  | nil => rw [byteLength, Nat.zero_add, List.nil_append]
  | cons c front ih => rw [byteLength, Nat.add_assoc, List.cons_append, dropBytes?_cons, ih]

/-- The text ahead is what is left after dropping the bytes up to the cursor. -/
theorem Passes.ahead_eq {text : List Char} {world : World σ} {run : Run σ}
    (passed : Passes engine lexer ⟨.start lexer.table text, world⟩ run) :
    run.scan.ahead = Text.dropBytes? text run.scan.cursor := by
  induction passed with
  | start => exact (Text.dropBytes?_zero text).symm
  | @step run next _ _ stepped ih =>
    obtain ⟨bytes, _, cursor, ahead⟩ := moves_step stepped
    cases here : run.scan.ahead with
    | none => rw [Lexer.step, step_of_ahead_none here] at stepped; cases stepped
    | some rest => rw [ahead, cursor, here, Text.dropBytes?_add (ih.symm.trans here)]; rfl

end TableLexer
