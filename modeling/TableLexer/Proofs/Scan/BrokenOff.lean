/-
**What a step that fails leaves behind.**

A step that fails breaks off where it is: what it did before stays done, what would have come after is not
done, and the cursor is not moved. So the scan may be taken up again from there. The error is that of the
innermost run that failed, and a run that fails leaves what its failing step left.

* `Action.move?`, `replay?_of_actAll`: actions that succeed make their moves on the stack.
* `stack_of_act_error`, `exists_of_actAll_error`: an action that fails moves nothing, and ends the actions.
* `breaksOff_of_perform`: how a behaviour that fails breaks off.
* `breaksOff_of_step`, `exists_raised`: how a step that fails breaks off, and where its error is raised.
* `failed_steps_break_off`: what is left behind.
-/

import TableLexer.Proofs.Scan.Counters
import TableLexer.Proofs.Scan.Readings
import TableLexer.Proofs.Scan.Watched

namespace TableLexer

open Step

variable {σ : Type} {engine : Engine σ} {nested : Option (NestedRun σ)} {lexer : Lexer}

/-! ### The actions of a composite behaviour -/

/-- What the action moves on the stack of its run. -/
def Action.move? : Action StateId → Option StackMove
  | .push state => some (.enter state)
  | .pop => some .leave
  | .emit .. | .delegate .. => none

namespace Step

variable {site : Site} {before here after : Run σ} {error : ScanError}

theorem Site.move?_of_deed? (site : Site) (action : Action StateId) :
    (site.deed? action).bind Deed.move? = action.move? := by
  cases action with
  | push | pop => rfl
  | emit group | delegate group =>
    cases part : site.found.group? group <;> simp [deed?, part, Deed.move?, Action.move?]

/-- Actions that succeed make of the stack what their moves make of it. -/
theorem replay?_of_actAll {actions : List (Action StateId)}
    (completed : actAll engine nested site actions before = .ok () here) :
    before.scan.stack.replay? (actions.filterMap Action.move?) = some here.scan.stack := by
  rw [actAll_eq_enactAll] at completed
  have replayed := replay?_of_enactAll completed
  rwa [List.filterMap_filterMap, funext site.move?_of_deed?] at replayed

/-- A deed that fails moves nothing. -/
theorem stack_of_enact_error {deed : Deed}
    (failed : enact engine nested lexer deed here = .error error after) :
    after.scan.stack = here.scan.stack := by
  have replays : Replays (enact engine nested lexer deed) (movesOfDeeds engine nested lexer [deed]) :=
    replays_enact deed
  have replayed := replays here
  rw [failed, movesOfDeeds, failed] at replayed
  exact (Option.some.inj replayed).symm

/-- An action that fails moves nothing. -/
theorem stack_of_act_error {action : Action StateId}
    (failed : act engine nested site action here = .error error after) :
    after.scan.stack = here.scan.stack := by
  have deed_moves_nothing (deed : Deed)
      (fails : enact engine nested site.lexer deed here = .error error after) :
      after.scan.stack = here.scan.stack := stack_of_enact_error fails
  cases action with
  | push state => exact deed_moves_nothing (.push state) failed
  | pop => exact deed_moves_nothing (.pop site.origin) failed
  | emit group kind =>
    cases part : site.found.group? group with
    | none => simp only [act, part] at failed; cases failed
    | some span =>
      simp only [act, part] at failed
      exact deed_moves_nothing (.emit kind (site.slice span)) failed
  | delegate group target =>
    cases part : site.found.group? group with
    | none => simp only [act, part] at failed; cases failed
    | some span =>
      simp only [act, part] at failed
      exact deed_moves_nothing (.delegate target (site.slice span) (site.origin + span.start)) failed

/-- Actions that fail do so in one of them, once those before it are done. -/
theorem exists_of_actAll_error {actions : List (Action StateId)}
    (failed : actAll engine nested site actions before = .error error after) :
    ∃ done action rest here, actions = done ++ action :: rest ∧
      actAll engine nested site done before = .ok () here ∧
      act engine nested site action here = .error error after := by
  induction actions generalizing before with
  | nil => cases failed
  | cons action rest ih =>
    rcases bind_eq_error_iff.mp failed with fails | ⟨_, middle, first, later⟩
    · exact ⟨[], action, rest, before, rfl, rfl, fails⟩
    · obtain ⟨done, other, others, here, same, completed, fails⟩ := ih later
      exact ⟨action :: done, other, others, here, congrArg (action :: ·) same,
        bind_eq_ok_iff.mpr ⟨(), middle, first, completed⟩, fails⟩

/-! ### Behaviours that fail -/

/-- How a behaviour that is carried out from `before` on breaks off in `after`. -/
inductive BreaksOff (engine : Engine σ) (nested : Option (NestedRun σ)) (site : Site) (before : Run σ)
    (error : ScanError) (after : Run σ) : Behavior StateId → Prop
  /-- One of several actions fails, once those before it are done. What they moved on the stack stays
  moved, and nothing else is. -/
  | action {done rest : List (Action StateId)} {action : Action StateId} {here : Run σ}
      (completed : actAll engine nested site done before = .ok () here)
      (failed : act engine nested site action here = .error error after)
      (moved : before.scan.stack.replay? (done.filterMap Action.move?) = some after.scan.stack) :
      BreaksOff engine nested site before error after (.composite (done ++ action :: rest))
  /-- A behaviour that is no list of actions fails, and moves nothing. -/
  | single {behavior : Behavior StateId} (no_list : ∀ actions, behavior ≠ .composite actions)
      (failed : perform engine nested site behavior before = .error error after)
      (still : after.scan.stack = before.scan.stack) :
      BreaksOff engine nested site before error after behavior

/-- A behaviour that is no list of actions enters or leaves a state last, and so moves nothing if it
fails. -/
theorem stack_of_perform_error {behavior : Behavior StateId}
    (no_list : ∀ actions, behavior ≠ .composite actions)
    (failed : perform engine nested site behavior before = .error error after) :
    after.scan.stack = before.scan.stack := by
  rw [perform_eq_enactAll] at failed
  obtain ⟨done, deed, rest, here, split, completed, fails⟩ := exists_of_enactAll_error failed
  have none_moved : done.filterMap Deed.move? = [] := by
    cases behavior with
    | composite actions => exact absurd rfl (no_list actions)
    | emit | emitAndPush | emitAndPop | delegate =>
      -- One deed at most comes before the failing one, and this one sends the token.
      rcases done with _ | ⟨first, _ | ⟨second, more⟩⟩ <;> simp [Site.deeds] at split
      all_goals first | rfl | (obtain ⟨rfl, _⟩ := split; rfl)
  have replayed := replay?_of_enactAll completed
  rw [none_moved] at replayed
  exact (stack_of_enact_error fails).trans (Option.some.inj replayed).symm

/-- A behaviour that fails breaks off. -/
theorem breaksOff_of_perform {behavior : Behavior StateId}
    (failed : perform engine nested site behavior before = .error error after) :
    BreaksOff engine nested site before error after behavior := by
  by_cases list : ∃ actions, behavior = .composite actions
  · obtain ⟨actions, rfl⟩ := list
    obtain ⟨done, action, rest, here, rfl, completed, fails⟩ := exists_of_actAll_error failed
    refine .action completed fails ?_
    rw [replay?_of_actAll completed, stack_of_act_error fails]
  · have no_list := not_exists.mp list
    exact .single no_list failed (stack_of_perform_error no_list failed)

/-- A token that is refused changes nothing of the scan. -/
theorem scan_of_emit_error {kind : Kind} {text : List Char}
    (failed : emit engine kind text before = .error error after) : after.scan = before.scan := by
  unfold emit at failed
  split at failed
  · cases failed
  · rcases bind_eq_error_iff.mp failed with refused | ⟨_, _, _, counted⟩
    · split at refused <;> cases refused
      rfl
    · cases counted

/-- A stall that fails changes nothing of the scan. -/
theorem scan_of_stall_error {state : State} {origin : Nat} {text : List Char}
    (failed : stall engine lexer state origin text before = .error error after) :
    after.scan = before.scan := by
  cases policy : engine.options.stall with
  | strict =>
    simp only [stall, policy] at failed
    cases failed
    rfl
  | lenient =>
    cases text with
    | nil =>
      simp only [stall, policy] at failed
      cases failed
      rfl
    | cons c rest =>
      rw [stall_eq_skip policy] at failed
      rcases bind_eq_error_iff.mp failed with fails | ⟨_, _, _, moved⟩
      · rcases bind_eq_error_iff.mp fails with told | ⟨_, noted, told, later⟩
        · cases told
        · cases told
          rcases bind_eq_error_iff.mp later with refused | ⟨_, _, _, counted⟩
          · have same := scan_of_emit_error refused
            exact same
          · cases counted
      · cases moved

end Step

/-! ### Steps that fail -/

/-- How a step from `run` breaks off in `after`. -/
inductive Lexer.BreaksOff (engine : Engine σ) (lexer : Lexer) (run : Run σ) (error : ScanError)
    (after : Run σ) : Prop
  /-- The cursor stands inside a character. -/
  | inside (nothing : run.scan.ahead = none)
      (raised : error = .insideCharacter (lexer.base + run.scan.cursor)) (still : after = run)
  /-- No rule is chosen, and the stall policy has the step fail, which was counted. -/
  | stalled {text : List Char} (ahead : run.scan.ahead = some text)
      (unmatched : (lexer.table.state run.scan.stack.top).select text = none)
      (failed : stall engine lexer (lexer.table.state run.scan.stack.top)
        (lexer.base + run.scan.cursor) text run.counted = .error error after)
      (still : after.scan = run.counted.scan)
  /-- A rule is chosen, and its behaviour breaks off. Before, the step was counted, and at most a record of
  the choice was written. -/
  | chosen {text : List Char} {selection : Selection} {before : Run σ}
      (ahead : run.scan.ahead = some text)
      (selects : (lexer.table.state run.scan.stack.top).select text = some selection)
      (told : enactAll engine (nestedRun engine (lexer.levelsLeft engine)) lexer
        (lexer.told engine.options run.scan text selection) run.counted = .ok () before)
      (scan : before.scan = run.counted.scan) (sink : before.world.sink = run.world.sink)
      (breaks : Step.BreaksOff engine (nestedRun engine (lexer.levelsLeft engine))
        (lexer.site run.scan text selection) before error after selection.rule.behavior)

variable {run before after : Run σ} {error : ScanError}

/-- To tell of a choice writes records only. -/
theorem exists_of_told (text : List Char) (selection : Selection) (run : Run σ) :
    ∃ before, enactAll engine nested lexer (lexer.told engine.options run.scan text selection)
        run.counted = .ok () before ∧
      before.scan = run.counted.scan ∧ before.world.sink = run.world.sink := by
  unfold Lexer.told
  split
  · exact ⟨_, rfl, rfl, rfl⟩
  · exact ⟨_, rfl, rfl, rfl⟩

/-- A step for which a rule is chosen tells of it, carries out the behaviour of the rule, and then moves the
cursor over the match. -/
theorem exists_step_eq_perform {text : List Char} {selection : Selection}
    (ahead : run.scan.ahead = some text)
    (selects : (lexer.table.state run.scan.stack.top).select text = some selection) :
    ∃ before, enactAll engine (nestedRun engine (lexer.levelsLeft engine)) lexer
        (lexer.told engine.options run.scan text selection) run.counted = .ok () before ∧
      before.scan = run.counted.scan ∧ before.world.sink = run.world.sink ∧
      lexer.step engine run =
        (perform engine (nestedRun engine (lexer.levelsLeft engine)) (lexer.site run.scan text selection)
          selection.rule.behavior >>= fun _ => changeScan (·.advance selection.found.length)) before := by
  obtain ⟨before, told, scan, sink⟩ := exists_of_told text selection run
  refine ⟨before, told, scan, sink, ?_⟩
  unfold Lexer.step
  rw [step_of_ahead ahead, selects]
  dsimp only
  rw [follow_eq, carryOut_eq_enactAll, enactAll_append, bind_assoc, bind_of_ok told, perform_eq_enactAll]
  rfl

/-- A step that fails breaks off. -/
theorem breaksOff_of_step (failed : lexer.step engine run = .error error after) :
    lexer.BreaksOff engine run error after := by
  cases ahead : run.scan.ahead with
  | none =>
    unfold Lexer.step at failed
    rw [step_of_ahead_none ahead] at failed
    cases failed
    exact .inside ahead rfl rfl
  | some text =>
    cases selects : (lexer.table.state run.scan.stack.top).select text with
    | none =>
      unfold Lexer.step at failed
      rw [step_of_ahead ahead, selects] at failed
      exact .stalled ahead selects failed (scan_of_stall_error failed)
    | some selection =>
      obtain ⟨before, told, scan, sink, steps⟩ := exists_step_eq_perform ahead selects
      rw [steps] at failed
      rcases bind_eq_error_iff.mp failed with fails | ⟨_, _, _, moved⟩
      · exact .chosen ahead selects told scan sink (breaksOff_of_perform fails)
      · cases moved

/-- A step that fails does not move the cursor. -/
theorem samePlace_of_step_error (failed : lexer.step engine run = .error error after) :
    SamePlace run after := by
  rcases step_eq_error_iff.mp failed with ⟨_, _, rfl⟩ | ⟨text, _, ⟨_, rfl⟩ | ⟨deeds, _, _, fails⟩⟩
  · exact .refl after
  · exact ⟨rfl, rfl⟩
  · have stays : Stays (enactAll engine (nestedRun engine (lexer.levelsLeft engine)) lexer deeds) :=
      stays_enactAll lexer deeds
    have place := stays run.counted
    rw [fails] at place
    exact place

/-- The error of a step that fails is raised in the innermost run that fails, which is left in the world
that the step leaves. -/
theorem exists_raised (failed : lexer.step engine run = .error error after) :
    ∃ inner there last, WorksIn engine lexer run inner there ∧ Raises engine inner there error ∧
      inner.step engine there = .error error last ∧ last.world = after.world := by
  rcases raises_or_starts failed with raises | ⟨child, piece, world, ended, starts, _, _, driven, same⟩
  · exact ⟨lexer, run, after, .self, raises, failed, rfl⟩
  · obtain ⟨inner, part, there, ⟨start, reaches, passed⟩, unfinished, ⟨last, fails, left⟩, raises⟩ :=
      exists_failsIn driven
    exact ⟨inner, there, last, .nested starts (reaches.trans passed.reaches) unfinished, raises, fails,
      left.trans same.symm⟩

/-- What a step from `run` that fails leaves behind in `after`. -/
structure Lexer.LeavesBehind (engine : Engine σ) (lexer : Lexer) (run : Run σ) (error : ScanError)
    (after : Run σ) : Prop where
  /-- The cursor is not moved. -/
  place : SamePlace run after
  /-- What came before the failure is done, and what would have come after it is not. -/
  breaks : lexer.BreaksOff engine run error after
  /-- The error is that of the innermost run that failed. -/
  raised : ∃ inner there last, WorksIn engine lexer run inner there ∧ Raises engine inner there error ∧
    inner.step engine there = .error error last ∧ last.world = after.world

theorem leavesBehind_of_step (failed : lexer.step engine run = .error error after) :
    lexer.LeavesBehind engine run error after where
  place := samePlace_of_step_error failed
  breaks := breaksOff_of_step failed
  raised := exists_raised failed

/-- Whatever the registry, the table, the scan and the sink are: a step that fails leaves the cursor where it
was, keeps what its behaviour did up to the action that failed, does nothing of what would have come after
it, and ends with the error of the innermost run that failed. Behaviours that are no lists of actions, and
stalls, leave the stack as it was. A sink keeps the tokens that it took. A run fails as the step does at
which it ends, and leaves what that leaves. -/
theorem failed_steps_break_off (engine : Engine σ) (lexer : Lexer) :
    (∀ run error after, lexer.step engine run = .error error after →
      lexer.LeavesBehind engine run error after) ∧
    (∀ run error after, lexer.step engine.watched run = .error error after →
      run.world.sink.taken <+: after.world.sink.taken) ∧
    ∀ run error last, lexer.drive engine run = .error error last ↔
      ∃ before, Passes engine lexer run before ∧ before.scan.isDone = false ∧
        lexer.step engine before = .error error last := by
  refine ⟨fun _ _ _ => leavesBehind_of_step, fun run error after failed => ?_,
    fun _ _ _ => drive_eq_error_iff⟩
  have answers := carries_lexerStep (Watched.drift_answers engine) lexer run
  rw [failed] at answers
  exact Watched.taken_prefix answers

/-- The letters are handed on after the digits were sent and a state was entered. The nested run takes two of
them and fails at the third. The scan stands where it stood, in the state that was entered, and the sink has
the three tokens. -/
theorem failed_steps_break_off_of_sample :
    ∃ table, Sample.numbered.build = .ok table ∧
      let engine : Engine Collector := .collecting Sample.registry {}
      let lexer : Lexer := { table }
      let run : Run (Watched Collector) := ⟨.start table "12abc".toList, { sink := { sink := {} } }⟩
      ∃ after, lexer.step engine.watched run = .error (.stall 4 rootName) after ∧
        after.scan.stack = (StateStack.new table.root).push table.root ∧
        after.world.sink.taken = [⟨.literalNumber, "12"⟩, ⟨.name, "a"⟩, ⟨.name, "b"⟩] ∧
        run.world.sink.taken <+: after.world.sink.taken ∧
        lexer.LeavesBehind engine.watched run (.stall 4 rootName) after ∧
        lexer.drive engine.watched run = .error (.stall 4 rootName) after := by
  have checked : (Sample.numbered.build.toOption.any fun table =>
      match ({ table } : Lexer).step (Engine.collecting Sample.registry {}).watched
        ⟨.start table "12abc".toList, { sink := { sink := {} } }⟩ with
      | .ok _ _ => false
      | .error error after =>
        error == .stall 4 rootName && after.scan.stack == (StateStack.new table.root).push table.root &&
          after.world.sink.taken == [⟨.literalNumber, "12"⟩, ⟨.name, "a"⟩, ⟨.name, "b"⟩]) = true := by
    decide +kernel
  cases build : Sample.numbered.build with
  | error => rw [build] at checked; cases checked
  | ok table =>
    rw [build, Except.toOption, Option.any_some] at checked
    split at checked
    · cases checked
    · rename_i error after failed
      rw [Bool.and_eq_true, Bool.and_eq_true] at checked
      obtain ⟨⟨raised, stack⟩, taken⟩ := checked
      obtain rfl := eq_of_beq raised
      refine ⟨table, rfl, after, failed, eq_of_beq stack, eq_of_beq taken, ?_, ?_, ?_⟩
      · exact (failed_steps_break_off (.collecting Sample.registry {}) { table }).2.1 _ _ _ failed
      · exact (failed_steps_break_off (Engine.collecting Sample.registry {}).watched { table }).1 _ _ _ failed
      · exact ((failed_steps_break_off (Engine.collecting Sample.registry {}).watched
          { table }).2.2 _ _ _).mpr ⟨_, .start, rfl, failed⟩

end TableLexer
