/-
**Where the error of a run comes from.**

A step fails by itself, or because a run that is nested in it fails. So the error of a run is raised by
a step of the innermost of the runs that failed.

* `Deed.Fails`, `Raises`: why a deed, and a step, fails by itself.
* `starts_of_comesTo`: a step starts the nested runs to which it comes to hand a text on.
* `raises_or_starts`: a step fails by itself or starts a nested run that fails with the same error.
* `exists_failsIn`: the run in which the error of a run is raised.
-/

import TableLexer.Proofs.Scan.Deeds
import TableLexer.Proofs.Scan.Reached

namespace TableLexer

open Step

variable {σ : Type} {engine : Engine σ} {nested : Option (NestedRun σ)} {lexer : Lexer}

/-! ### Why a step fails -/

/-- The deed fails by itself and not in a nested run. -/
inductive Deed.Fails (engine : Engine σ) (lexer : Lexer) (here : Run σ) : Deed → ScanError → Prop
  /-- The sink refuses the token. -/
  | refused {kind : Kind} {text : List Char} {message : String} {sink : σ} (some_text : text ≠ [])
      (refuses : engine.emitter.emit ⟨kind, String.ofList text⟩ here.world.sink =
        .error message sink) : Fails engine lexer here (.emit kind text) (.emit message)
  /-- There is one state only. -/
  | lowest {origin : Nat} (last : here.scan.stack.below = []) :
      Fails engine lexer here (.pop origin) (.popRoot origin)
  /-- The language has no table. -/
  | unknown {language : String} {text : List Char} {offset : Nat} {error : BuildError}
      (some_text : text ≠ [])
      (missing : (here.world.table engine.registry language).1 = .error error) :
      Fails engine lexer here (.delegate (.named language) text offset) (.build error)
  /-- The nested run would be too deep. -/
  | deepest {target : Target} {text : List Char} {offset : Nat} (some_text : text ≠ [])
      (deep : engine.options.maxDepth ≤ lexer.depth) :
      Fails engine lexer here (.delegate target text offset)
        (.depthExceeded engine.options.maxDepth offset)

/-- A step from `run` has done some deeds and comes, at `here`, to this one. -/
def ComesTo (engine : Engine σ) (lexer : Lexer) (run here : Run σ) (deed : Deed) : Prop :=
  ∃ text done rest bytes, run.scan.ahead = some text ∧
    lexer.intent engine.options run.scan text = .go (done ++ deed :: rest) bytes ∧
    enactAll engine (nestedRun engine (lexer.levelsLeft engine)) lexer done run.counted = .ok () here

/-- The step from `run` fails with the error by itself and not in a nested run. -/
inductive Raises (engine : Engine σ) (lexer : Lexer) (run : Run σ) : ScanError → Prop
  /-- The cursor stands inside a character. -/
  | inside (nothing : run.scan.ahead = none) :
      Raises engine lexer run (.insideCharacter (lexer.base + run.scan.cursor))
  /-- No rule is chosen. -/
  | intent {text : List Char} {error : ScanError} (ahead : run.scan.ahead = some text)
      (fails : lexer.intent engine.options run.scan text = .fail error) :
      Raises engine lexer run error
  /-- A deed fails. -/
  | deed {here : Run σ} {deed : Deed} {error : ScanError}
      (comes : ComesTo engine lexer run here deed) (fails : deed.Fails engine lexer here error) :
      Raises engine lexer run error

namespace Step

/-- Deeds that fail do so in one of them, once those before it are done. -/
theorem exists_of_enactAll_error {deeds : List Deed} {run after : Run σ} {error : ScanError}
    (failed : enactAll engine nested lexer deeds run = .error error after) :
    ∃ done deed rest here, deeds = done ++ deed :: rest ∧
      enactAll engine nested lexer done run = .ok () here ∧
      enact engine nested lexer deed here = .error error after := by
  induction deeds generalizing run with
  | nil => cases failed
  | cons deed rest ih =>
    rcases bind_eq_error_iff.mp failed with fails | ⟨_, middle, first, later⟩
    · exact ⟨[], deed, rest, run, rfl, rfl, fails⟩
    · obtain ⟨done, other, others, here, same, succeeded, fails⟩ := ih later
      exact ⟨deed :: done, other, others, here, congrArg (deed :: ·) same,
        bind_eq_ok_iff.mpr ⟨(), middle, first, succeeded⟩, fails⟩

/-- The world in which a nested run starts: it is told that it does. -/
def delegated (lexer : Lexer) (text : List Char) (offset : Nat) (table : Table) (world : World σ) :
    World σ :=
  world.addRecords [.delegating lexer.table.language (Text.byteLength text) offset table.language
    (lexer.depth + 1)]

/-- A nested run that succeeds lets the text be handed on, and no other does. -/
theorem delegateTo_eq_ok_iff {nested : NestedRun σ} {text : List Char} {offset : Nat} {table : Table}
    {here last : Run σ} :
    delegateTo engine (some nested) lexer text offset table here = .ok () last ↔
      ∃ ended, nested ⟨table, lexer.depth + 1, offset⟩ text
          (delegated lexer text offset table here.world) = .ok () ended ∧
        last = ⟨here.scan.count (·.absorb ended.scan.metrics (lexer.depth + 1)), ended.world⟩ := by
  show runNested nested ⟨table, lexer.depth + 1, offset⟩ text
    ⟨here.scan, delegated lexer text offset table here.world⟩ = _ ↔ _
  unfold runNested
  dsimp only
  split <;> rename_i inner <;> rw [inner] <;> simp [eq_comm]

/-- A nested run that fails lets the handing on fail with its error. -/
theorem delegateTo_eq_error_iff {nested : NestedRun σ} {text : List Char} {offset : Nat}
    {table : Table} {here last : Run σ} {error : ScanError} :
    delegateTo engine (some nested) lexer text offset table here = .error error last ↔
      ∃ ended, nested ⟨table, lexer.depth + 1, offset⟩ text
          (delegated lexer text offset table here.world) = .error error ended ∧
        last = ⟨here.scan.count (·.absorb ended.scan.metrics (lexer.depth + 1)), ended.world⟩ := by
  show runNested nested ⟨table, lexer.depth + 1, offset⟩ text
    ⟨here.scan, delegated lexer text offset table here.world⟩ = _ ↔ _
  unfold runNested
  dsimp only
  split <;> rename_i inner <;> rw [inner] <;> simp [eq_comm, and_assoc]

theorem fails_of_emit_error {kind : Kind} {text : List Char} {here after : Run σ} {error : ScanError}
    (failed : emit engine kind text here = .error error after) :
    Deed.Fails engine lexer here (.emit kind text) error := by
  by_cases nothing : text = []
  · subst nothing
    cases failed
  · unfold emit at failed
    rw [if_neg (by simpa using nothing)] at failed
    rcases bind_eq_error_iff.mp failed with refused | ⟨_, middle, _, counted⟩
    · split at refused
      · cases refused
      · rename_i answer
        cases refused
        exact .refused nothing answer
    · cases counted

theorem fails_of_resolve_error {target : Target} {text : List Char} {here after : Run σ}
    {error : ScanError} (some_text : text ≠ []) (offset : Nat)
    (failed : resolve engine lexer target here = .error error after) :
    Deed.Fails engine lexer here (.delegate target text offset) error := by
  cases target with
  | current => cases failed
  | named language =>
    unfold resolve at failed
    dsimp only at failed
    split at failed
    · cases failed
    · rename_i answer
      cases failed
      exact .unknown some_text (congrArg Prod.fst answer)

/-- A deed fails by itself, or hands a text on to a nested run that fails. -/
theorem fails_or_hands {deed : Deed} {here after : Run σ} {error : ScanError}
    (shallow : nested = none → engine.options.maxDepth ≤ lexer.depth)
    (failed : enact engine nested lexer deed here = .error error after) :
    deed.Fails engine lexer here error ∨
      ∃ run target text offset table found ended, nested = some run ∧
        deed = .delegate target text offset ∧ text ≠ [] ∧
        resolve engine lexer target here = .ok table found ∧
        run ⟨table, lexer.depth + 1, offset⟩ text (delegated lexer text offset table found.world) =
          .error error ended ∧
        after.world = ended.world := by
  cases deed with
  | note | fallBack | push => cases failed
  | emit kind text => exact .inl (fails_of_emit_error failed)
  | pop origin =>
    unfold enact pop StateStack.pop? at failed
    cases below : here.scan.stack.below with
    | nil =>
      simp only [below] at failed
      cases failed
      exact .inl (.lowest below)
    | cons next rest => simp only [below] at failed; cases failed
  | delegate target text offset =>
    by_cases nothing : text = []
    · subst nothing
      cases failed
    · rw [enact_delegate nothing] at failed
      rcases bind_eq_error_iff.mp failed with missing | ⟨table, found, resolved, refused⟩
      · exact .inl (fails_of_resolve_error nothing offset missing)
      · cases nested with
        | none =>
          cases refused
          exact .inl (.deepest nothing (shallow rfl))
        | some run =>
          obtain ⟨ended, inner, rfl⟩ := delegateTo_eq_error_iff.mp refused
          exact .inr ⟨run, target, text, offset, table, found, ended, rfl, rfl, nothing, resolved,
            inner, rfl⟩

/-! ### Nested runs that are started -/

/-- Where a deed succeeds, it does the same with other nested runs, unless one of them fails. -/
theorem enact_or_fails {one other : NestedRun σ} {error : ScanError}
    (agree : ∀ child text world, other child text world = one child text world ∨
      ∃ ended, other child text world = .error error ended) {deed : Deed} {run here : Run σ}
    (succeeded : enact engine (some one) lexer deed run = .ok () here) :
    enact engine (some other) lexer deed run = .ok () here ∨
      ∃ last, enact engine (some other) lexer deed run = .error error last := by
  cases deed with
  | note | emit | fallBack | push | pop => exact .inl succeeded
  | delegate target text offset =>
    by_cases nothing : text = []
    · subst nothing
      exact .inl succeeded
    · rw [enact_delegate nothing] at succeeded ⊢
      obtain ⟨table, found, resolved, done⟩ := bind_eq_ok_iff.mp succeeded
      rw [bind_of_ok resolved]
      obtain ⟨ended, inner, same⟩ := delegateTo_eq_ok_iff.mp done
      rcases agree ⟨table, lexer.depth + 1, offset⟩ text
        (delegated lexer text offset table found.world) with equal | ⟨failed, fails⟩
      · exact .inl (delegateTo_eq_ok_iff.mpr ⟨ended, equal.trans inner, same⟩)
      · exact .inr ⟨_, delegateTo_eq_error_iff.mpr ⟨failed, fails, rfl⟩⟩

theorem enactAll_or_fails {one other : NestedRun σ} {error : ScanError}
    (agree : ∀ child text world, other child text world = one child text world ∨
      ∃ ended, other child text world = .error error ended) {deeds : List Deed} {run here : Run σ}
    (succeeded : enactAll engine (some one) lexer deeds run = .ok () here) :
    enactAll engine (some other) lexer deeds run = .ok () here ∨
      ∃ last, enactAll engine (some other) lexer deeds run = .error error last := by
  induction deeds generalizing run with
  | nil => exact .inl succeeded
  | cons deed rest ih =>
    obtain ⟨_, middle, first, later⟩ := bind_eq_ok_iff.mp succeeded
    rcases enact_or_fails agree first with same | ⟨last, fails⟩
    · rcases ih later with others | ⟨last, fails⟩
      · exact .inl (bind_eq_ok_iff.mpr ⟨(), middle, same, others⟩)
      · exact .inr ⟨last, bind_eq_error_iff.mpr (.inr ⟨(), middle, same, fails⟩)⟩
    · exact .inr ⟨last, bind_eq_error_iff.mpr (.inl fails)⟩

end Step

/-- Runs may not nest in the deepest ones. -/
theorem nestedRun_eq_none_iff :
    nestedRun engine (lexer.levelsLeft engine) = none ↔ engine.options.maxDepth ≤ lexer.depth := by
  rw [← Nat.sub_eq_zero_iff_le]
  show _ ↔ lexer.levelsLeft engine = 0
  cases lexer.levelsLeft engine with
  | zero => exact ⟨fun _ => rfl, fun _ => rfl⟩
  | succ levels => exact ⟨nofun, nofun⟩

/-- A nested run is a run of the lexer to which the text is handed on. -/
theorem nestedRun_eq_drive {run : NestedRun σ}
    (allowed : nestedRun engine (lexer.levelsLeft engine) = some run) {child : Lexer}
    (deeper : child.depth = lexer.depth + 1) (text : List Char) (world : World σ) :
    run child text world = child.drive engine ⟨.start child.table text, world⟩ := by
  cases left : lexer.levelsLeft engine with
  | zero => rw [left] at allowed; cases allowed
  | succ levels =>
    rw [left] at allowed
    cases allowed
    have fewer : child.levelsLeft engine = levels := by
      unfold Lexer.levelsLeft at left ⊢
      rw [deeper]
      omega
    unfold Lexer.drive Lexer.step
    rw [fewer]

/-- A step that comes to hand a text on starts a nested run on it: were this run to fail with an error in
which the step does not end, then the step would end in it. -/
theorem starts_of_comesTo {run here found : Run σ} {target : Target} {piece : List Char} {offset : Nat}
    {table : Table} (levels : lexer.depth < engine.options.maxDepth)
    (comes : ComesTo engine lexer run here (.delegate target piece offset)) (some_piece : piece ≠ [])
    (resolved : resolve engine lexer target here = .ok table found) :
    Starts engine lexer run ⟨table, lexer.depth + 1, offset⟩ piece
      (delegated lexer piece offset table found.world) := by
  classical
  obtain ⟨text, done, rest, bytes, ahead, intent, succeeded⟩ := comes
  obtain ⟨nested, allowed⟩ : ∃ nested, nestedRun engine (lexer.levelsLeft engine) = some nested :=
    Option.ne_none_iff_exists'.mp (mt nestedRun_eq_none_iff.mp (Nat.not_le.mpr levels))
  rw [allowed] at succeeded
  obtain ⟨error, differs⟩ : ∃ error, ∀ last, step engine (some nested) lexer run ≠ .error error last := by
    by_cases fails : ∃ last, step engine (some nested) lexer run = .error (.emit "") last
    · obtain ⟨last, fails⟩ := fails
      exact ⟨.read "", fun other same => by rw [fails] at same; cases same⟩
    · exact ⟨.emit "", fun last same => fails ⟨last, same⟩⟩
  let place : Lexer × List Char × World σ :=
    (⟨table, lexer.depth + 1, offset⟩, piece, delegated lexer piece offset table found.world)
  let other : NestedRun σ := fun child text world =>
    if (child, text, world) = place then .error error here else nested child text world
  have elsewhere (child : Lexer) (text : List Char) (world : World σ)
      (away : (child, text, world) ≠ place) : other child text world = nested child text world :=
    if_neg away
  have agree (child : Lexer) (text : List Char) (world : World σ) :
      other child text world = nested child text world ∨
        ∃ ended, other child text world = .error error ended := by
    by_cases there : (child, text, world) = place
    · exact .inr ⟨here, if_pos there⟩
    · exact .inl (elsewhere child text world there)
  obtain ⟨last, fails⟩ : ∃ last, enactAll engine (some other) lexer
      (done ++ .delegate target piece offset :: rest) run.counted = .error error last := by
    have there : other ⟨table, lexer.depth + 1, offset⟩ piece
        (delegated lexer piece offset table found.world) = .error error here := if_pos rfl
    rw [enactAll_append]
    rcases enactAll_or_fails agree succeeded with same | ⟨last, fails⟩
    · rw [bind_of_ok same, enactAll, enact_delegate some_piece, bind_assoc, bind_of_ok resolved]
      exact ⟨_, bind_eq_error_iff.mpr (.inl (delegateTo_eq_error_iff.mpr ⟨here, there, rfl⟩))⟩
    · exact ⟨last, bind_eq_error_iff.mpr (.inl fails)⟩
  refine ⟨nested, other, allowed, elsewhere, ?_⟩
  have stepped : step engine (some other) lexer run = .error error last := by
    rw [step_eq_carryOut ahead, intent]
    exact bind_eq_error_iff.mpr (.inl fails)
  exact stepped ▸ (differs last).symm

/-- A step fails by itself, or starts a nested run that fails with the same error. -/
theorem raises_or_starts {run after : Run σ} {error : ScanError}
    (failed : lexer.step engine run = .error error after) :
    Raises engine lexer run error ∨
      ∃ child text world ended, Starts engine lexer run child text world ∧
        child.depth = lexer.depth + 1 ∧ lexer.depth < engine.options.maxDepth ∧
        child.drive engine ⟨.start child.table text, world⟩ = .error error ended ∧
        after.world = ended.world := by
  unfold Lexer.step at failed
  cases ahead : run.scan.ahead with
  | none =>
    rw [step_of_ahead_none ahead] at failed
    cases failed
    exact .inl (.inside ahead)
  | some text =>
    rw [step_eq_carryOut ahead] at failed
    cases intent : lexer.intent engine.options run.scan text with
    | fail =>
      rw [intent] at failed
      cases failed
      exact .inl (.intent ahead intent)
    | go deeds bytes =>
      rw [intent] at failed
      rcases bind_eq_error_iff.mp failed with fails | ⟨_, _, _, moved⟩
      · obtain ⟨done, deed, rest, here, rfl, succeeded, fails⟩ := exists_of_enactAll_error fails
        rcases fails_or_hands nestedRun_eq_none_iff.mp fails with alone |
          ⟨nested, target, piece, offset, table, found, ended, allowed, rfl, some_piece, resolved,
            inner, world⟩
        · exact .inl (.deed ⟨text, done, rest, bytes, ahead, intent, succeeded⟩ alone)
        · have levels : lexer.depth < engine.options.maxDepth := Nat.not_le.mp fun deep => by
            rw [nestedRun_eq_none_iff.mpr deep] at allowed
            cases allowed
          have starts := starts_of_comesTo levels
            ⟨text, done, rest, bytes, ahead, intent, succeeded⟩ some_piece resolved
          rw [nestedRun_eq_drive allowed rfl] at inner
          exact .inr ⟨_, piece, _, ended, starts, rfl, levels, inner, world⟩
      · cases moved

/-! ### The innermost run -/

/-- What a run of the lexer comes through itself, without the runs that are nested in it. -/
inductive Passes (engine : Engine σ) (lexer : Lexer) (start : Run σ) : Run σ → Prop where
  | start : Passes engine lexer start start
  | step {run next : Run σ} (passed : Passes engine lexer start run)
      (unfinished : run.scan.isDone = false) (stepped : lexer.step engine run = .ok () next) :
      Passes engine lexer start next

/-- The innermost of the runs that fail, among that of the outermost lexer and those nested in it, is one
of the child on the piece. It has come to `run`, and the next step fails by itself, with the error, and
leaves the world. -/
structure FailsIn (engine : Engine σ) (outermost : Lexer) (start : Run σ) (error : ScanError)
    (world : World σ) (child : Lexer) (piece : List Char) (run : Run σ) : Prop where
  passed : ∃ before, Reaches engine outermost start child ⟨.start child.table piece, before⟩ ∧
    Passes engine child ⟨.start child.table piece, before⟩ run
  unfinished : run.scan.isDone = false
  failed : ∃ last, child.step engine run = .error error last ∧ last.world = world
  raises : Raises engine child run error

theorem Reaches.trans {start run after : Run σ} {child inner : Lexer}
    (one : Reaches engine lexer start child run) (other : Reaches engine child run inner after) :
    Reaches engine lexer start inner after := by
  induction other with
  | start => exact one
  | step _ unfinished stepped ih => exact .step ih unfinished stepped
  | nest _ unfinished starts ih => exact .nest ih unfinished starts

theorem Passes.reaches {start run : Run σ} (passed : Passes engine lexer start run) :
    Reaches engine lexer start lexer run := by
  induction passed with
  | start => exact .start
  | step _ unfinished stepped ih => exact .step ih unfinished stepped

/-- A run that fails does so in one of its steps. -/
theorem exists_of_repeatStep_error {bound : Nat} {start run after : Run σ} {error : ScanError}
    (passed : Passes engine lexer start run)
    (failed : repeatStep (lexer.step engine) bound run = .error error after) :
    ∃ last, Passes engine lexer start last ∧ last.scan.isDone = false ∧
      lexer.step engine last = .error error after := by
  induction bound generalizing run with
  | zero => cases failed
  | succ bound ih =>
    rw [repeatStep] at failed
    split at failed
    · cases failed
    · rename_i undone
      have unfinished := Bool.eq_false_iff.mpr undone
      cases stepped : lexer.step engine run with
      | ok _ next =>
        rw [stepped] at failed
        exact ih (.step passed unfinished stepped) failed
      | error =>
        rw [stepped] at failed
        cases failed
        exact ⟨run, passed, unfinished, stepped⟩

/-- The error of a run is raised in the innermost of the runs that fail. -/
theorem exists_failsIn {text : List Char} {world : World σ} {error : ScanError} {ended : Run σ}
    (failed : lexer.drive engine ⟨.start lexer.table text, world⟩ = .error error ended) :
    ∃ child piece run,
      FailsIn engine lexer ⟨.start lexer.table text, world⟩ error ended.world child piece run := by
  -- Each nested run has one level less left.
  induction left : engine.options.maxDepth - lexer.depth using Nat.strongRecOn
    generalizing lexer text world ended with
  | _ levels ih =>
    obtain ⟨run, passed, unfinished, fails⟩ := exists_of_repeatStep_error .start failed
    rcases raises_or_starts fails with raises |
      ⟨inner, piece, before, innerEnded, starts, depth, levels_left, inner_failed, same⟩
    · exact ⟨lexer, text, run, ⟨world, .start, passed⟩, unfinished, ⟨ended, fails, rfl⟩, raises⟩
    · have fewer : engine.options.maxDepth - inner.depth < levels := by omega
      obtain ⟨child, part, last, failsIn⟩ := ih _ fewer inner_failed rfl
      obtain ⟨⟨beginning, reached, passes⟩, undone, fails, raises⟩ := failsIn
      have nests : Reaches engine lexer ⟨.start lexer.table text, world⟩ inner
          ⟨.start inner.table piece, before⟩ := .nest passed.reaches unfinished starts
      exact ⟨child, part, last, ⟨beginning, nests.trans reached, passes⟩, undone, same ▸ fails, raises⟩

theorem exists_failsIn_of_run {text : List Char} {world : World σ} {error : ScanError}
    (failed : (lexer.run engine text world).result = .error error) :
    ∃ child piece run, FailsIn engine lexer ⟨.start lexer.table text, world⟩ error
      (lexer.run engine text world).world child piece run := by
  unfold Lexer.run at failed ⊢
  cases ended : lexer.drive engine ⟨.start lexer.table text, world⟩ with
  | ok => rw [ended] at failed; cases failed
  | error =>
    rw [ended] at failed
    cases failed
    exact exists_failsIn ended

end TableLexer
