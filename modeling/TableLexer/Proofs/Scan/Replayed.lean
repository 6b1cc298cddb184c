/-
**What became of a stack.**

A scan enters and leaves states, and does nothing else with its stack. So the stack is what these moves make
of the root alone, whichever operations came before and whether they failed. The lowest state stays the root
of the table, for to leave it is refused; and nested runs, which have stacks of their own, move nothing on
that of the run around them.

* `StateStack.replay?`: what moves make of a stack, if none of them leaves the lowest state.
* `Lexer.moves`: the moves that operations on a scan make.
* `replays_enactAll`, `replays_step`, `replays_act`, `replay?_operate`: a stack is what the moves made of it.
* `Table.Bears`: the lowest state is the root, and all states are those of the table.
* `step_popRoot_iff`, `drive_popRoot_iff`: what lets a step, and a run, fail in the root.
* `stacks_stay_well_formed`: what is said of the stacks of all nested runs.
-/

import TableLexer.Proofs.Scan.Handed
import TableLexer.Proofs.Scan.Offsets

namespace TableLexer

open Step

/-! ### Moves on a stack -/

/-- One thing that may be done with a stack. -/
inductive StackMove where
  /-- Enters a state. -/
  | enter (state : StateId)
  /-- Leaves the topmost state. -/
  | leave
  deriving DecidableEq, Repr

namespace StateStack

/-- The stack after a move, or `none` where the move leaves the only state. -/
def move? (stack : StateStack) : StackMove → Option StateStack
  | .enter state => some (stack.push state)
  | .leave => stack.pop?.map Prod.snd

/-- The stack after moves, or `none` where one of them leaves the only state. -/
def replay? (stack : StateStack) (moves : List StackMove) : Option StateStack :=
  moves.foldlM move? stack

/-- The state under all others. -/
def lowest (stack : StateStack) : StateId :=
  (stack.top :: stack.below).getLast (List.cons_ne_nil _ _)

theorem replay?_append (stack : StateStack) (moves more : List StackMove) :
    stack.replay? (moves ++ more) = (stack.replay? moves).bind (·.replay? more) :=
  List.foldlM_append

theorem lowest_push (stack : StateStack) (state : StateId) : (stack.push state).lowest = stack.lowest :=
  List.getLast_cons_cons

theorem lowest_of_pop? {stack rest : StateStack} {state : StateId}
    (left : stack.pop? = some (state, rest)) : rest.lowest = stack.lowest := by
  obtain ⟨top, _ | ⟨next, below⟩⟩ := stack
  · cases left
  · cases left
    exact (List.getLast_cons_cons).symm

/-- No move changes the lowest state. -/
theorem lowest_of_move? {stack next : StateStack} {move : StackMove}
    (moved : stack.move? move = some next) : next.lowest = stack.lowest := by
  cases move with
  | enter state =>
    cases moved
    exact stack.lowest_push state
  | leave =>
    obtain ⟨⟨state, rest⟩, left, rfl⟩ := Option.map_eq_some_iff.mp moved
    exact lowest_of_pop? left

theorem lowest_of_replay? {stack last : StateStack} {moves : List StackMove}
    (replayed : stack.replay? moves = some last) : last.lowest = stack.lowest := by
  induction moves generalizing stack with
  | nil =>
    cases replayed
    rfl
  | cons move rest ih =>
    obtain ⟨next, moved, later⟩ := Option.bind_eq_some_iff.mp replayed
    exact (ih later).trans (lowest_of_move? moved)

/-- To leave a state is refused where it is the only one. -/
theorem pop?_eq_none_iff {stack : StateStack} : stack.pop? = none ↔ stack.depth = 1 := by
  obtain ⟨top, _ | ⟨next, below⟩⟩ := stack <;> simp [pop?, depth]

end StateStack

/-- The stack is one of a run of the table: its lowest state is the root, and its states are those of the
table. -/
structure Table.Bears (table : Table) (stack : StateStack) : Prop where
  lowest : stack.lowest = table.root
  owns : table.Owns stack

/-! ### The moves of a run -/

/-- What the deed moves on the stack of its run. -/
def Deed.move? : Deed → Option StackMove
  | .push state => some (.enter state)
  | .pop _ => some .leave
  | .note _ | .emit .. | .fallBack | .delegate .. => none

variable {σ : Type}

namespace Step

variable (engine : Engine σ) (nested : Option (NestedRun σ)) (lexer : Lexer)

/-- The moves of deeds, up to the first that fails, which moves nothing. -/
def movesOfDeeds : List Deed → Run σ → List StackMove
  | [], _ => []
  | deed :: rest, run =>
    match enact engine nested lexer deed run with
    | .ok _ next => deed.move?.toList ++ movesOfDeeds rest next
    | .error _ _ => []

/-- The moves of a step. -/
def movesOfStep (run : Run σ) : List StackMove :=
  match run.scan.ahead with
  | none => []
  | some text =>
    match lexer.intent engine.options run.scan text with
    | .fail _ => []
    | .go deeds _ => movesOfDeeds engine nested lexer deeds run.counted

/-- The moves of steps that are repeated until the scan is done. -/
def movesOfRepeat (step : StepM σ Unit) (moves : Run σ → List StackMove) : Nat → Run σ → List StackMove
  | 0, _ => []
  | bound + 1, run =>
    if run.scan.isDone then []
    else
      moves run ++
        match step run with
        | .ok _ next => movesOfRepeat step moves bound next
        | .error _ _ => []

end Step

namespace Lexer

/-- The moves of an operation on a scan of the lexer. -/
def operationMoves (engine : Engine σ) (lexer : Lexer) (operation : Operation) (run : Run σ) :
    List StackMove :=
  let moves := movesOfStep engine (nestedRun engine (lexer.levelsLeft engine)) lexer
  match operation with
  | .step => moves run
  | .drive => movesOfRepeat (lexer.step engine) moves run.scan.stepsLeft run

/-- The moves of operations, each from where the one before it ended. -/
def moves (engine : Engine σ) (lexer : Lexer) : List Operation → Run σ → List StackMove
  | [], _ => []
  | operation :: rest, run =>
    lexer.operationMoves engine operation run ++
      moves engine lexer rest (endOf (operation.act engine lexer run))

end Lexer

/-! ### The stack is what the moves made of it -/

section Replays

variable {engine : Engine σ} {nested : Option (NestedRun σ)} {lexer : Lexer} {run : Run σ}

/-- The moves make of the stack what it is where the part of a step ends. -/
def Step.Replays (part : StepM σ Unit) (moves : Run σ → List StackMove) : Prop :=
  ∀ run, run.scan.stack.replay? (moves run) = some (endOf (part run)).scan.stack

namespace Step

/-- What only counts leaves the stack as it was, whether it succeeds or fails. -/
theorem OnlyCounts.stack_eq {part : StepM σ Unit} (counts : OnlyCounts part) (run : Run σ) :
    (endOf (part run)).scan.stack = run.scan.stack := by
  obtain ⟨metrics, same⟩ := counts run
  rw [same]

/-- A deed makes the move of its kind if it succeeds, and none if it fails. -/
theorem replays_enact (deed : Deed) :
    Replays (enact engine nested lexer deed) (movesOfDeeds engine nested lexer [deed]) := by
  intro run
  have still (counts : OnlyCounts (enact engine nested lexer deed)) (none : deed.move? = none) :
      run.scan.stack.replay? (movesOfDeeds engine nested lexer [deed] run) =
        some (endOf (enact engine nested lexer deed run)).scan.stack := by
    rw [counts.stack_eq]
    unfold movesOfDeeds
    split
    · rw [none]
      rfl
    · rfl
  cases deed with
  | note record => exact still (onlyCounts_note record) rfl
  | emit kind text => exact still (onlyCounts_emit engine kind text) rfl
  | fallBack => exact still (onlyCounts_count _) rfl
  | delegate target text offset => exact still (onlyCounts_delegate _ _ _ _ _ _) rfl
  | push state => rfl
  | pop origin =>
    cases left : run.scan.stack.pop? with
    | none => simp [movesOfDeeds, enact, pop, left, endOf, StateStack.replay?]
    | some popped =>
      simp [movesOfDeeds, enact, pop, left, endOf, StateStack.replay?, StateStack.move?, Deed.move?]

theorem replays_enactAll (deeds : List Deed) :
    Replays (enactAll engine nested lexer deeds) (movesOfDeeds engine nested lexer deeds) := by
  induction deeds with
  | nil => exact fun _ => rfl
  | cons deed rest ih =>
    intro run
    have first : Replays (enact engine nested lexer deed) (movesOfDeeds engine nested lexer [deed]) :=
      replays_enact deed
    have here := first run
    unfold movesOfDeeds at here ⊢
    rw [enactAll]
    cases enacted : enact engine nested lexer deed run with
    | error =>
      rw [bind_of_error enacted]
      rw [enacted] at here
      exact here
    | ok _ next =>
      rw [enacted] at here
      simp only [movesOfDeeds, List.append_nil] at here
      rw [bind_of_ok enacted, StateStack.replay?_append, here]
      exact ih next

theorem replays_step : Replays (step engine nested lexer) (movesOfStep engine nested lexer) := by
  intro run
  unfold movesOfStep
  cases ahead : run.scan.ahead with
  | none =>
    rw [step_of_ahead_none ahead]
    rfl
  | some text =>
    rw [step_eq_carryOut ahead]
    dsimp only
    cases lexer.intent engine.options run.scan text with
    | fail error => rfl
    | go deeds bytes =>
      have moved : Replays (enactAll engine nested lexer deeds) (movesOfDeeds engine nested lexer deeds) :=
        replays_enactAll deeds
      refine (moved run.counted).trans (congrArg some ?_)
      -- The cursor is moved last, and the stack is not.
      unfold Intent.carryOut
      dsimp only
      cases done : enactAll engine nested lexer deeds run.counted with
      | error => rw [bind_of_error done]
      | ok _ middle => rw [bind_of_ok done]; rfl

theorem Replays.repeat {step : StepM σ Unit} {moves : Run σ → List StackMove}
    (replays : Replays step moves) (bound : Nat) :
    Replays (repeatStep step bound) (movesOfRepeat step moves bound) := by
  induction bound with
  | zero => exact fun _ => rfl
  | succ bound ih =>
    intro run
    rw [repeatStep, movesOfRepeat]
    by_cases done : run.scan.isDone
    · rw [if_pos done, if_pos done]
      rfl
    · rw [if_neg done, if_neg done, StateStack.replay?_append, replays run]
      cases step run with
      | ok _ next => exact ih next
      | error => rfl

end Step

theorem replays_act (operation : Operation) :
    Replays (operation.act engine lexer) (lexer.operationMoves engine operation) := by
  cases operation with
  | step => exact replays_step
  | drive => exact fun run => Replays.repeat replays_step _ run

/-- Operations, of which some may fail, leave the stack that their moves make of the one before. -/
theorem replay?_operate (program : List Operation) (run : Run σ) :
    run.scan.stack.replay? (lexer.moves engine program run) =
      some (lexer.operate engine program run).2.scan.stack := by
  induction program generalizing run with
  | nil => rfl
  | cons operation rest ih =>
    have here : Replays (operation.act engine lexer) (lexer.operationMoves engine operation) :=
      replays_act operation
    rw [Lexer.moves, StateStack.replay?_append, here run]
    exact ih _

end Replays

/-! ### Stacks of runs -/

section Stacks

variable {engine : Engine σ} {lexer : Lexer} {run : Run σ}

/-- Operations on a scan of a table that was built leave a stack of its runs. -/
theorem bears_operate (built : lexer.table.Built) (text : List Char) (world : World σ)
    (program : List Operation) :
    lexer.table.Bears (lexer.operate engine program ⟨.start lexer.table text, world⟩).2.scan.stack := by
  obtain ⟨_, well⟩ := built.wellBuilt
  have owns : KeepsOwn lexer.table (lexer.step engine) := owns_step well
  exact
    { lowest := StateStack.lowest_of_replay? (replay?_operate program _)
      owns := Lexer.keeps_operate owns program (.new well.root) }

/-- To leave the only state fails, and moves nothing. -/
theorem step_eq_popRoot {here : Run σ} {offset : Nat} (comes : ComesTo engine lexer run here (.pop offset))
    (only : here.scan.stack.depth = 1) : lexer.step engine run = .error (.popRoot offset) here := by
  refine step_fails_of_comesTo comes ?_
  show pop offset here = _
  unfold pop
  rw [StateStack.pop?_eq_none_iff.mpr only]

/-- A step raises the error of the root where it comes to leave the only state. -/
theorem exists_of_raises_popRoot {offset : Nat} (raises : Raises engine lexer run (.popRoot offset)) :
    ∃ here, ComesTo engine lexer run here (.pop offset) ∧ here.scan.stack.depth = 1 := by
  generalize error : ScanError.popRoot offset = raised at raises
  cases raises with
  | inside => cases error
  | intent ahead fails =>
    subst error
    obtain ⟨_, ⟨_, other⟩ | ⟨_, other⟩⟩ := Lexer.exists_of_intent_fail fails <;> cases other
  | deed comes fails =>
    subst error
    cases fails with
    | lowest last => exact ⟨_, comes, congrArg (List.length · + 1) last⟩

/-- A step fails in the root if it comes, itself or in a nested run, to leave the only state. -/
theorem step_popRoot_iff {offset : Nat} :
    (∃ after, lexer.step engine run = .error (.popRoot offset) after) ↔
      ∃ inner there, WorksIn engine lexer run inner there ∧
        ∃ here, ComesTo engine inner there here (.pop offset) ∧ here.scan.stack.depth = 1 := by
  constructor
  · rintro ⟨after, failed⟩
    obtain ⟨inner, there, works, raises⟩ := exists_worksIn failed
    exact ⟨inner, there, works, exists_of_raises_popRoot raises⟩
  · rintro ⟨inner, there, works, here, comes, only⟩
    exact works.step_fails (step_eq_popRoot comes only)

/-- A run fails in the root if it comes through one whose next step comes to leave the only state. -/
theorem drive_popRoot_iff {offset : Nat} :
    (∃ after, lexer.drive engine run = .error (.popRoot offset) after) ↔
      ∃ inner there, Reaches engine lexer run inner there ∧ there.scan.isDone = false ∧
        ∃ here, ComesTo engine inner there here (.pop offset) ∧ here.scan.stack.depth = 1 := by
  constructor
  · rintro ⟨after, failed⟩
    obtain ⟨inner, there, reaches, unfinished, raises⟩ := exists_reaches_of_drive_error failed
    exact ⟨inner, there, reaches, unfinished, exists_of_raises_popRoot raises⟩
  · rintro ⟨inner, there, reaches, unfinished, here, comes, only⟩
    obtain ⟨last, driven, _⟩ := exists_drive_error reaches
      (Lexer.drive_of_error unfinished (step_eq_popRoot comes only))
    exact ⟨last, driven⟩

/-- Whatever operations were done on a scan, nested or not, and whether they failed: its stack is what its own
moves made of the root alone, so that the root is its lowest state, and all its states are those of its table.
A step and a run fail in the root if they come, themselves or in a nested run, to leave the only state, and
this moves nothing. Nor does a text that is handed on, whatever nested runs do with it. -/
theorem stacks_stay_well_formed (engine : Engine σ) {table : Table} (described : table.Built)
    {text piece : List Char} {world before : World σ} (built : world.cache.BuiltFrom engine.registry)
    {child : Lexer} (begins : Begins engine { table } ⟨.start table text, world⟩ child piece before)
    (program : List Operation) :
    let start : Run σ := ⟨.start child.table piece, before⟩
    let last := (child.operate engine program start).2
    child.table.Bears last.scan.stack ∧
    (StateStack.new child.table.root).replay? (child.moves engine program start) =
      some last.scan.stack ∧
    (∀ offset, (∃ after, child.step engine last = .error (.popRoot offset) after) ↔
      ∃ inner run, WorksIn engine child last inner run ∧
        ∃ here, ComesTo engine inner run here (.pop offset) ∧ here.scan.stack.depth = 1) ∧
    (∀ offset, (∃ after, child.drive engine last = .error (.popRoot offset) after) ↔
      ∃ inner run, Reaches engine child last inner run ∧ run.scan.isDone = false ∧
        ∃ here, ComesTo engine inner run here (.pop offset) ∧ here.scan.stack.depth = 1) ∧
    (∀ here offset, ComesTo engine child last here (.pop offset) → here.scan.stack.depth = 1 →
      child.step engine last = .error (.popRoot offset) here) ∧
    ∀ nested target part offset (here : Run σ),
      (endOf (delegate engine nested child target part offset here)).scan.stack = here.scan.stack := by
  intro start last
  have outermost : engine.registry.Serves table ({ table } : Lexer).table := .inl rfl
  have own : child.table.Built := (begins.served outermost built).1.built described
  refine ⟨bears_operate own piece before program, replay?_operate program start,
    fun _ => step_popRoot_iff, fun _ => drive_popRoot_iff, fun _ _ => step_eq_popRoot,
    fun nested target part offset => ?_⟩
  exact (onlyCounts_delegate engine nested child target part offset).stack_eq

end Stacks

/-- Each try to read the letters enters a state first, and fails before it would leave it. -/
theorem stacks_stay_well_formed_of_sample :
    ∃ table, table.Built ∧ TableCache.BuiltFrom Sample.registry {} ∧
      let engine : Engine Collector := .collecting Sample.registry {}
      let lexer : Lexer := { table }
      let start : Run Collector := ⟨.start table "12abc".toList, { sink := {} }⟩
      let last := (lexer.operate engine [.drive, .step] start).2
      lexer.moves engine [.drive, .step] start = [.enter table.root, .enter table.root] ∧
        table.Bears last.scan.stack ∧
        (StateStack.new table.root).replay? [.enter table.root, .enter table.root] =
          some last.scan.stack := by
  have checked : (Sample.numbered.build.toOption.any fun table =>
      ({ table } : Lexer).moves (.collecting Sample.registry {}) [.drive, .step]
        ⟨.start table "12abc".toList, { sink := {} }⟩ ==
          [.enter table.root, .enter table.root]) = true := by
    decide +kernel
  cases build : Sample.numbered.build with
  | error => rw [build] at checked; cases checked
  | ok table =>
    rw [build] at checked
    have moves := eq_of_beq checked
    have described : table.Built := ⟨_, _, build⟩
    let engine : Engine Collector := .collecting Sample.registry {}
    have begins : Begins engine { table } ⟨.start table "12abc".toList, { sink := {} }⟩
        { table } "12abc".toList { sink := {} } := .first
    obtain ⟨bears, replayed, _⟩ :=
      stacks_stay_well_formed engine described TableCache.builtFrom_empty begins [.drive, .step]
    exact ⟨table, described, TableCache.builtFrom_empty, moves, bears, moves ▸ replayed⟩

end TableLexer
