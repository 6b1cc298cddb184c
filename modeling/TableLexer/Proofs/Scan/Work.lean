/-
**How much work a run is.**

A step pays for itself and for the nested runs that it starts with the bytes over which it moves the cursor:
these are one at least, and each text that it hands on is a part of them. Nested runs pay with the bytes of
their own texts. So if no rule hands on more than `K` texts, each byte of the text pays for at most `K ^ d`
steps of runs of depth `d`, also where rules hand their whole match back to their own table; and the runs
never are deeper than allowed.

* `Registry.HandsOnAtMost`: no rule hands on more texts than so many.
* `handed_of_intent`: how many texts a step hands on, and of how many bytes they are.
* `NestedRun.Spends`: what nested runs count for each byte of their texts.
* `steps_carryOut_le`, `exists_price`: what a step costs, and what it leaves to pay with.
* `steps_drive_le`, `spends_nestedRun`: what runs cost, at every depth.
* `stepsTaken_le`: a run by itself takes no more steps than its text has bytes.
* `work_is_bounded`: what a run costs as a whole.
-/

import Mathlib.Algebra.Ring.GeomSum
import TableLexer.Proofs.Pattern.Inside
import TableLexer.Proofs.Scan.Handed

namespace TableLexer

open Step

/-! ### What a step hands on -/

/-- The deed hands a text on. -/
def Deed.handsOn : Deed → Bool
  | .delegate .. => true
  | .note _ | .emit .. | .fallBack | .push _ | .pop _ => false

/-- No rule of the outermost table and of the tables of all languages hands on more texts than so many. -/
def Registry.HandsOnAtMost (registry : Registry) (outermost : Table) (most : Nat) : Prop :=
  ∀ table, registry.Serves outermost table → ∀ rule ∈ table.rules, rule.behavior.targets.length ≤ most

/-- A behaviour hands on a text for each of its targets at most. -/
theorem Step.Site.countP_handsOn_le (site : Site) (behavior : Behavior StateId) :
    (site.deeds behavior).countP Deed.handsOn ≤ behavior.targets.length := by
  have action_le (action : Action StateId) :
      (site.deed? action).toList.countP Deed.handsOn ≤ action.target?.toList.length := by
    cases action with
    | push | pop => exact Nat.le_refl _
    | emit group kind | delegate group target =>
      cases part : site.found.group? group <;> simp [deed?, part, Action.target?, Deed.handsOn]
  cases behavior with
  | emit | emitAndPush | emitAndPop | delegate => exact Nat.le_refl _
  | composite actions =>
    show (actions.filterMap site.deed?).countP Deed.handsOn ≤ (actions.filterMap Action.target?).length
    rw [List.filterMap_eq_flatMap_toList, List.filterMap_eq_flatMap_toList]
    induction actions with
    | nil => exact Nat.le_refl _
    | cons action rest ih =>
      rw [List.flatMap_cons, List.flatMap_cons, List.countP_append, List.length_append]
      exact Nat.add_le_add (action_le action) ih

variable {σ : Type} {engine : Engine σ} {nested : Option (NestedRun σ)} {lexer : Lexer} {outermost : Table}
  {most each : Nat}

/-- A step hands on no more texts than a rule may, and each is a part of what it moves the cursor over. -/
theorem handed_of_intent (atMost : engine.registry.HandsOnAtMost outermost most)
    (belongs : engine.registry.Serves outermost lexer.table) {options : Options} {scan : Scan}
    {text : List Char} {deeds : List Deed} {bytes : Nat}
    (intent : lexer.intent options scan text = .go deeds bytes) :
    deeds.countP Deed.handsOn ≤ most ∧
      ∀ target piece offset, .delegate target piece offset ∈ deeds → Text.byteLength piece ≤ bytes := by
  have pieces := @Lexer.exists_of_delegate_mem lexer options scan text deeds bytes intent
  unfold Lexer.intent at intent
  dsimp only at intent
  split at intent
  · rename_i stalls
    constructor
    · split at intent
      · cases intent
      · cases intent
      · cases intent
        exact Nat.zero_le _
    · intro target piece offset hands
      obtain ⟨_, chosen, _⟩ := pieces hands
      cases stalls.symm.trans chosen
  · rename_i selection chosen
    cases intent
    obtain ⟨rules, found, _⟩ := exists_of_select chosen
    constructor
    · have quiet : (lexer.told options scan text selection).countP Deed.handsOn = 0 := by
        unfold Lexer.told
        split <;> rfl
      have some_targets := (lexer.site scan text selection).countP_handsOn_le selection.rule.behavior
      have few := atMost lexer.table belongs selection.rule (Table.mem_rules rules)
      rw [List.countP_append, quiet]
      omega
    · intro target piece offset hands
      obtain ⟨other, same, part⟩ := pieces hands
      obtain rfl : other = selection := Option.some.inj (same.symm.trans chosen)
      rcases part with ⟨rfl, _⟩ | ⟨group, span, participates, rfl, _⟩
      · have whole : other.found.group? 0 = some other.found.span := rfl
        exact Pattern.Regex.byteLength_slice_le_length found whole
      · exact Pattern.Regex.byteLength_slice_le_length found participates

/-! ### What a step costs -/

/-- However nested runs of the tables end, they count at most so many steps for each byte of their texts. -/
def NestedRun.Spends (nested : NestedRun σ) (registry : Registry) (outermost : Table) (each : Nat) : Prop :=
  ∀ child text world, registry.Serves outermost child.table → world.cache.BuiltFrom registry →
    (endOf (nested child text world)).scan.metrics.steps ≤ Text.byteLength text * each

namespace Step

/-- A deed that hands no text on counts no steps. -/
theorem steps_enact_of_quiet {deed : Deed} (quiet : deed.handsOn = false) (run : Run σ) :
    (endOf (enact engine nested lexer deed run)).scan.metrics.steps = run.scan.metrics.steps := by
  cases deed with
  | note | fallBack | push => rfl
  | emit kind text =>
    show (endOf (emit engine kind text run)).scan.metrics.steps = _
    unfold emit
    split
    · rfl
    · show (endOf (EStateM.bind _ _ run)).scan.metrics.steps = _
      unfold EStateM.bind
      dsimp only
      cases engine.emitter.emit ⟨kind, String.ofList text⟩ run.world.sink <;> rfl
  | pop origin =>
    show (endOf (pop origin run)).scan.metrics.steps = _
    unfold pop
    cases run.scan.stack.pop? <;> rfl
  | delegate => cases quiet

variable (spends : ∀ run ∈ nested, run.Spends engine.registry outermost each)
  (belongs : engine.registry.Serves outermost lexer.table)
include spends belongs

/-- To hand a text on costs as much as the nested run on it. -/
theorem steps_delegate_le {target : Target} {text : List Char} {offset : Nat} {run : Run σ}
    (built : run.world.cache.BuiltFrom engine.registry) :
    (endOf (enact engine nested lexer (.delegate target text offset) run)).scan.metrics.steps ≤
      run.scan.metrics.steps + Text.byteLength text * each := by
  by_cases nothing : text = []
  · subst nothing
    exact Nat.le_add_right _ _
  · rw [enact_delegate nothing]
    have still := congrArg (·.metrics.steps) (scan_of_resolve engine lexer target run)
    cases resolved : resolve engine lexer target run with
    | error error found =>
      rw [resolved] at still
      rw [bind_of_error resolved]
      exact Nat.le_trans (Nat.le_of_eq still) (Nat.le_add_right _ _)
    | ok table found =>
      rw [resolved] at still
      have same : found.scan.metrics.steps = run.scan.metrics.steps := still
      rw [bind_of_ok resolved, ← same]
      obtain ⟨serves, later⟩ := served_of_resolve belongs built resolved
      cases nested with
      | none => exact Nat.le_add_right _ _
      | some nested =>
        have inner := spends nested rfl ⟨table, lexer.depth + 1, offset⟩ text
          (delegated lexer text offset table found.world) serves later
        refine Nat.le_trans (Nat.le_of_eq ?_) (Nat.add_le_add_left inner _)
        show (endOf (runNested nested ⟨table, lexer.depth + 1, offset⟩ text
          ⟨found.scan, delegated lexer text offset table found.world⟩)).scan.metrics.steps = _
        unfold runNested
        dsimp only
        cases nested ⟨table, lexer.depth + 1, offset⟩ text
          (delegated lexer text offset table found.world) <;> rfl

/-- Deeds cost as much as the nested runs on the texts that they hand on. -/
theorem steps_enactAll_le (carries : ∀ run ∈ nested, NestedCarries
      (fun before after => before.cache.BuiltFrom engine.registry → after.cache.BuiltFrom engine.registry) run)
    {deeds : List Deed} {bytes : Nat}
    (parts : ∀ target piece offset, .delegate target piece offset ∈ deeds → Text.byteLength piece ≤ bytes)
    {run : Run σ} (built : run.world.cache.BuiltFrom engine.registry) :
    (endOf (enactAll engine nested lexer deeds run)).scan.metrics.steps ≤
      run.scan.metrics.steps + deeds.countP Deed.handsOn * (bytes * each) := by
  induction deeds generalizing run with
  | nil => exact Nat.le_add_right _ _
  | cons deed rest ih =>
    have first : (endOf (enact engine nested lexer deed run)).scan.metrics.steps ≤
        run.scan.metrics.steps + (if deed.handsOn then 1 else 0) * (bytes * each) := by
      cases deed with
      | delegate target piece offset =>
        have within := parts target piece offset List.mem_cons_self
        refine Nat.le_trans (steps_delegate_le spends belongs built) (Nat.add_le_add_left ?_ _)
        simpa [Deed.handsOn] using Nat.mul_le_mul_right each within
      | note | emit | fallBack | push | pop =>
        exact Nat.le_trans (Nat.le_of_eq (steps_enact_of_quiet rfl run)) (Nat.le_add_right _ _)
    have later := carries_enact (drift_builtFrom engine) carries lexer deed run built
    have parts (target : Target) (piece : List Char) (offset : Nat)
        (hands : .delegate target piece offset ∈ rest) : Text.byteLength piece ≤ bytes :=
      parts target piece offset (List.mem_cons_of_mem deed hands)
    have sum : (deed :: rest).countP Deed.handsOn * (bytes * each) =
        (if deed.handsOn then 1 else 0) * (bytes * each) + rest.countP Deed.handsOn * (bytes * each) := by
      rw [List.countP_cons, Nat.add_comm, Nat.add_mul]
    rw [sum, ← Nat.add_assoc, enactAll]
    cases enacted : enact engine nested lexer deed run with
    | error =>
      rw [enacted] at first
      rw [bind_of_error enacted]
      exact Nat.le_trans first (Nat.le_add_right _ _)
    | ok _ next =>
      rw [enacted] at first later
      rw [bind_of_ok enacted]
      exact Nat.le_trans (ih parts later) (Nat.add_le_add_right first _)

end Step

/-! ### What a run costs -/

section Prices

variable (atMost : engine.registry.HandsOnAtMost outermost most)
  (spends : ∀ run ∈ nested, run.Spends engine.registry outermost each)
  (carries : ∀ run ∈ nested, NestedCarries
    (fun before after => before.cache.BuiltFrom engine.registry → after.cache.BuiltFrom engine.registry) run)
  (belongs : engine.registry.Serves outermost lexer.table) {run : Run σ}
include atMost spends carries belongs

/-- What a step does for the choice of a rule, or for a character that it skips, costs no more than the bytes
pay for over which it is about to move the cursor. -/
theorem steps_carryOut_le (built : run.world.cache.BuiltFrom engine.registry) {text : List Char}
    {deeds : List Deed} {bytes : Nat}
    (intent : lexer.intent engine.options run.scan text = .go deeds bytes) :
    (endOf ((Intent.go deeds bytes).carryOut engine nested lexer run.counted)).scan.metrics.steps ≤
      run.scan.metrics.steps + bytes * (1 + most * each) := by
  obtain ⟨few, parts⟩ := handed_of_intent atMost belongs intent
  have spent : (endOf (enactAll engine nested lexer deeds run.counted)).scan.metrics.steps ≤
      run.scan.metrics.steps + 1 + deeds.countP Deed.handsOn * (bytes * each) :=
    steps_enactAll_le spends belongs carries parts built
  have price : 1 + deeds.countP Deed.handsOn * (bytes * each) ≤ bytes * (1 + most * each) := by
    calc 1 + deeds.countP Deed.handsOn * (bytes * each)
        ≤ bytes + most * (bytes * each) :=
          Nat.add_le_add (Lexer.pos_of_intent intent) (Nat.mul_le_mul_right _ few)
      _ = bytes * (1 + most * each) := by rw [Nat.mul_add, Nat.mul_one, Nat.mul_left_comm]
  rw [Nat.add_assoc] at spent
  have paid := Nat.le_trans spent (Nat.add_le_add_left price _)
  unfold Intent.carryOut
  dsimp only
  cases done : enactAll engine nested lexer deeds run.counted with
  | error =>
    rw [done] at paid
    rw [bind_of_error done]
    exact paid
  | ok _ middle =>
    rw [done] at paid
    rw [bind_of_ok done]
    exact paid

/-- A step costs no more than the bytes pay for that it moves the cursor over, or would have if it had not
failed, and leaves the others. -/
theorem exists_price (built : run.world.cache.BuiltFrom engine.registry)
    (unfinished : run.scan.isDone = false) :
    ∃ bytes, bytes ≤ run.scan.stepsLeft ∧
      (endOf (step engine nested lexer run)).scan.metrics.steps ≤
        run.scan.metrics.steps + bytes * (1 + most * each) ∧
      ∀ next, step engine nested lexer run = .ok () next →
        next.scan.stepsLeft + bytes ≤ run.scan.stepsLeft := by
  cases ahead : run.scan.ahead with
  | none =>
    rw [step_of_ahead_none ahead]
    exact ⟨0, Nat.zero_le _, Nat.le_add_right _ _, nofun⟩
  | some text =>
    have left : run.scan.stepsLeft = Text.byteLength text := by
      unfold Scan.stepsLeft
      rw [ahead]
      rfl
    rw [step_eq_carryOut ahead]
    cases intent : lexer.intent engine.options run.scan text with
    | fail error =>
      have some_bytes := Text.byteLength_pos (Scan.ne_nil_of_ahead ahead unfinished)
      refine ⟨1, left ▸ some_bytes, ?_, nofun⟩
      show run.scan.metrics.steps + 1 ≤ _
      omega
    | go deeds bytes =>
      have cost := steps_carryOut_le atMost spends carries belongs built intent
      refine ⟨bytes, left ▸ Lexer.le_of_intent intent, cost, fun next stepped => ?_⟩
      obtain ⟨_, middle, done, moved⟩ := bind_eq_ok_iff.mp stepped
      cases moved
      exact stepsLeft_le_of_enactAll ahead intent done

/-- A run costs no more than its bytes pay for, whether it succeeds or fails. -/
theorem steps_drive_le (built : run.world.cache.BuiltFrom engine.registry) :
    (endOf (driveWith (step engine nested lexer) run)).scan.metrics.steps ≤
      run.scan.metrics.steps + run.scan.stepsLeft * (1 + most * each) := by
  have shrinks : Shrinks (step engine nested lexer) := shrinks_step
  induction run using shrinks.induct with
  | done run finished =>
    rw [driveWith_of_done finished]
    exact Nat.le_add_right _ _
  | error run failure after unfinished failed =>
    obtain ⟨bytes, within, cost, _⟩ := exists_price atMost spends carries belongs built unfinished
    rw [failed] at cost
    rw [driveWith_of_error unfinished failed]
    exact Nat.le_trans cost (Nat.add_le_add_left (Nat.mul_le_mul_right _ within) _)
  | ok run next unfinished stepped ih =>
    obtain ⟨bytes, _, cost, left⟩ := exists_price atMost spends carries belongs built unfinished
    have later := carries_step (drift_builtFrom engine) carries lexer run built
    rw [stepped] at cost later
    have paid := Nat.mul_le_mul_right (1 + most * each) (left next stepped)
    rw [Nat.add_mul] at paid
    rw [shrinks.driveWith_of_ok unfinished stepped]
    have rest := ih later
    have cost : next.scan.metrics.steps ≤ run.scan.metrics.steps + bytes * (1 + most * each) := cost
    omega

theorem steps_drive_le_of_start {world : World σ} (built : world.cache.BuiltFrom engine.registry)
    (text : List Char) :
    (endOf (driveWith (step engine nested lexer) ⟨.start lexer.table text, world⟩)).scan.metrics.steps ≤
      Text.byteLength text * (1 + most * each) := by
  let start : Run σ := ⟨.start lexer.table text, world⟩
  have cost : (endOf (driveWith (step engine nested lexer) start)).scan.metrics.steps ≤
      0 + Text.byteLength text * (1 + most * each) :=
    steps_drive_le atMost spends carries belongs built
  rwa [Nat.zero_add] at cost

end Prices

/-- Nested runs cost, for each byte, as many steps as runs may be started from it, at all depths. -/
theorem spends_nestedRun (atMost : engine.registry.HandsOnAtMost outermost most) (levels : Nat) :
    ∀ run ∈ nestedRun engine levels,
      run.Spends engine.registry outermost (∑ depth ∈ Finset.range levels, most ^ depth) := by
  induction levels with
  | zero => simp [nestedRun]
  | succ levels ih =>
    intro run nested child text world belongs built
    cases nested
    have carries := nestedCarries_nestedRun (drift_builtFrom engine) levels
    rw [geom_sum_succ, Nat.add_comm]
    exact steps_drive_le_of_start atMost ih carries belongs built text

/-! ### What a run costs by itself -/

/-- How many steps a run takes by itself, without the runs that are nested in it, if so many are allowed. -/
def stepsTaken (step : StepM σ Unit) : Nat → Run σ → Nat
  | 0, _ => 0
  | bound + 1, run =>
    if run.scan.isDone then 0
    else
      match step run with
      | .ok _ next => stepsTaken step bound next + 1
      | .error _ _ => 1

/-- However many steps are allowed, a run takes no more than there are bytes left. -/
theorem stepsTaken_le {step : StepM σ Unit} (shrinks : Shrinks step) (bound : Nat) (run : Run σ) :
    stepsTaken step bound run ≤ run.scan.stepsLeft := by
  induction bound generalizing run with
  | zero => exact Nat.zero_le _
  | succ bound ih =>
    rw [stepsTaken]
    by_cases finished : run.scan.isDone
    · rw [if_pos finished]
      exact Nat.zero_le _
    · rw [if_neg finished]
      cases stepped : step run with
      | error => exact Nat.pos_of_ne_zero (mt Scan.isDone_iff.mpr finished)
      | ok _ next => exact Nat.lt_of_le_of_lt (ih next) (shrinks run next stepped)

/-- If no rule hands on more than so many texts, a run counts, for each byte of its text, no more steps than
the powers of that number add up to, up to the limit of depth: whether it succeeds or fails, and also if rules
hand all that they match back to their own table, or tables to each other. A run by itself takes no more steps
than its text has bytes, however many it may take. -/
theorem work_is_bounded (engine : Engine σ) {table : Table} {most : Nat}
    (atMost : engine.registry.HandsOnAtMost table most) {world : World σ}
    (built : world.cache.BuiltFrom engine.registry) (text : List Char) :
    (endOf (Lexer.drive engine { table } ⟨.start table text, world⟩)).scan.metrics.steps ≤
      Text.byteLength text * ∑ depth ∈ Finset.range (engine.options.maxDepth + 1), most ^ depth ∧
    ∀ (lexer : Lexer) (piece : List Char) (before : World σ) (bound : Nat),
      stepsTaken (lexer.step engine) bound ⟨.start lexer.table piece, before⟩ ≤ Text.byteLength piece := by
  constructor
  · have carries := nestedCarries_nestedRun (drift_builtFrom engine) engine.options.maxDepth
    have spends := spends_nestedRun atMost engine.options.maxDepth
    have belongs : engine.registry.Serves table ({ table } : Lexer).table := .inl rfl
    rw [geom_sum_succ, Nat.add_comm]
    exact steps_drive_le_of_start atMost spends carries belongs built text
  · exact fun lexer piece before bound => stepsTaken_le (lexer.shrinks_step engine) bound _

/-! ### A table that hands all back to itself -/

/-- A language whose only rule hands what it matched back to its table. -/
def Sample.mirrored : Language where
  descriptor := { name := "Mirrored" }
  source := { states := [(rootName, [⟨"[ab]", .delegate .current⟩])] }

/-- Whether the rules of all languages show that they hand on no more texts than so many. -/
def Registry.handsOnAtMostByForm (registry : Registry) (most : Nat) : Bool :=
  registry.languages.all fun language =>
    language.build.toOption.all fun table =>
      table.rules.all fun rule => decide (rule.behavior.targets.length ≤ most)

theorem Registry.handsOnAtMost_of_form {registry : Registry} {most : Nat}
    (form : registry.handsOnAtMostByForm most = true) {outermost : Table}
    (builds : registry.Builds outermost) : registry.HandsOnAtMost outermost most := by
  have all (table : Table) (builds : registry.Builds table) :
      ∀ rule ∈ table.rules, rule.behavior.targets.length ≤ most := by
    obtain ⟨language, registered, build⟩ := builds
    have tables := List.all_eq_true.mp form language registered
    rw [build] at tables
    exact fun rule member => of_decide_eq_true (List.all_eq_true.mp tables rule member)
  rintro table (rfl | other)
  · exact all table builds
  · exact all table other

/-- The first letter is handed on until that is too deep, which is after three of at most six steps. -/
theorem work_is_bounded_of_sample :
    ∃ table, let registry : Registry := { languages := [Sample.mirrored] }
      Sample.mirrored.build = .ok table ∧ registry.HandsOnAtMost table 1 ∧
        TableCache.BuiltFrom registry {} ∧
        let engine : Engine Collector := .collecting registry { maxDepth := 2 }
        let ended := Lexer.drive engine { table } ⟨.start table "ab".toList, { sink := {} }⟩
        (ending ended).1 = some (.depthExceeded 2 0) ∧ (endOf ended).scan.metrics.steps = 3 ∧
          (endOf ended).scan.metrics.steps ≤ 2 * ∑ depth ∈ Finset.range 3, 1 ^ depth := by
  let registry : Registry := { languages := [Sample.mirrored] }
  have checked : (Sample.mirrored.build.toOption.any fun table =>
      let ended := Lexer.drive (.collecting registry { maxDepth := 2 }) { table }
        ⟨.start table "ab".toList, { sink := {} }⟩
      (ending ended).1 == some (.depthExceeded 2 0) && (endOf ended).scan.metrics.steps == 3) = true := by
    decide +kernel
  cases build : Sample.mirrored.build with
  | error => rw [build] at checked; cases checked
  | ok table =>
    rw [build] at checked
    obtain ⟨deep, steps⟩ := (Bool.and_eq_true _ _).mp checked
    have atMost : registry.HandsOnAtMost table 1 :=
      Registry.handsOnAtMost_of_form (by decide +kernel) ⟨Sample.mirrored, List.mem_cons_self, build⟩
    let engine : Engine Collector := .collecting registry { maxDepth := 2 }
    have built : ({ sink := {} } : World Collector).cache.BuiltFrom registry := TableCache.builtFrom_empty
    obtain ⟨bounded, _⟩ := work_is_bounded engine atMost built "ab".toList
    exact ⟨table, rfl, atMost, TableCache.builtFrom_empty, eq_of_beq deep, eq_of_beq steps, bounded⟩

end TableLexer
