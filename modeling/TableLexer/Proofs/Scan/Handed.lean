/-
**Nested runs, and how their errors come up.**

A step starts a nested run where it comes to hand a text on, finds the table for it, and has a level of
nesting left. If that run fails, the step fails with the same error, and with it all runs around it.

* `starts_iff_delegates`: which nested runs a step starts.
* `served_of_reaches`, `Begins.served`: the tables of nested runs are those that the registry serves.
* `step_fails_of_starts`, `exists_drive_error`: the error of a nested run comes up.
* `exists_worksIn`, `exists_reaches_of_drive_error`: the step, and the run, in which an error is raised.
-/

import TableLexer.Proofs.Scan.Driven
import TableLexer.Proofs.Scan.Twins

namespace TableLexer

open Step

variable {σ : Type} {engine : Engine σ} {lexer child : Lexer} {run : Run σ} {text : List Char}
  {world : World σ}

/-! ### Which nested runs a step starts -/

/-- The step from the run comes to hand the text on to the child, in the world. -/
inductive Delegates (engine : Engine σ) (lexer : Lexer) (run : Run σ) :
    Lexer → List Char → World σ → Prop where
  | mk {here found : Run σ} {target : Target} {text : List Char} {offset : Nat} {table : Table}
      (levels : lexer.depth < engine.options.maxDepth)
      (comes : ComesTo engine lexer run here (.delegate target text offset)) (some_text : text ≠ [])
      (resolved : resolve engine lexer target here = .ok table found) :
      Delegates engine lexer run ⟨table, lexer.depth + 1, offset⟩ text
        (delegated lexer text offset table found.world)

namespace Step

variable {nested other : NestedRun σ}

/-- To hand a text on depends on nothing of nested runs but the run on it. -/
theorem delegateTo_congr {offset : Nat} {table : Table} {here : Run σ}
    (same : other ⟨table, lexer.depth + 1, offset⟩ text
        (delegated lexer text offset table here.world) =
      nested ⟨table, lexer.depth + 1, offset⟩ text (delegated lexer text offset table here.world)) :
    delegateTo engine (some other) lexer text offset table here =
      delegateTo engine (some nested) lexer text offset table here := by
  show runNested other _ text ⟨here.scan, delegated lexer text offset table here.world⟩ =
    runNested nested _ text ⟨here.scan, delegated lexer text offset table here.world⟩
  unfold runNested
  dsimp only
  rw [same]

/-- A deed depends on nothing of nested runs but the run that it starts. -/
theorem enact_congr {deed : Deed} {here : Run σ}
    (same : ∀ target piece offset table found, deed = .delegate target piece offset → piece ≠ [] →
      resolve engine lexer target here = .ok table found →
      other ⟨table, lexer.depth + 1, offset⟩ piece
          (delegated lexer piece offset table found.world) =
        nested ⟨table, lexer.depth + 1, offset⟩ piece
          (delegated lexer piece offset table found.world)) :
    enact engine (some other) lexer deed here = enact engine (some nested) lexer deed here := by
  cases deed with
  | note | emit | fallBack | push | pop => rfl
  | delegate target piece offset =>
    by_cases nothing : piece = []
    · subst nothing
      rfl
    · rw [enact_delegate nothing, enact_delegate nothing]
      cases resolved : resolve engine lexer target here with
      | error => rw [bind_of_error resolved, bind_of_error resolved]
      | ok table found =>
        rw [bind_of_ok resolved, bind_of_ok resolved]
        exact delegateTo_congr (same target piece offset table found rfl nothing resolved)

end Step

/-- Where a step comes to deeds, what it does from there depends on nothing of nested runs but those to
which it hands a text on. -/
theorem enactAll_congr {nested other : NestedRun σ} {deeds rest : List Deed} {bytes : Nat}
    {here : Run σ} (done : List Deed) (ahead : run.scan.ahead = some text)
    (intent : lexer.intent engine.options run.scan text = .go deeds bytes)
    (allowed : nestedRun engine (lexer.levelsLeft engine) = some nested)
    (same : ∀ child piece world, Delegates engine lexer run child piece world →
      other child piece world = nested child piece world)
    (split : deeds = done ++ rest)
    (succeeded : enactAll engine (some nested) lexer done run.counted = .ok () here) :
    enactAll engine (some other) lexer rest here = enactAll engine (some nested) lexer rest here := by
  have levels : lexer.depth < engine.options.maxDepth := Nat.not_le.mp fun deep => by
    rw [nestedRun_eq_none_iff.mpr deep] at allowed
    cases allowed
  induction rest generalizing done here with
  | nil => rfl
  | cons deed rest ih =>
    have first : enact engine (some other) lexer deed here = enact engine (some nested) lexer deed here := by
      refine enact_congr fun target piece offset table found is_handed some_piece resolved => ?_
      have comes : ComesTo engine lexer run here (.delegate target piece offset) :=
        ⟨text, done, rest, bytes, ahead, by rw [intent, split, is_handed], by rw [allowed]; exact succeeded⟩
      exact same _ _ _ (.mk levels comes some_piece resolved)
    rw [enactAll, enactAll]
    cases enacted : enact engine (some nested) lexer deed here with
    | error => rw [bind_of_error enacted, bind_of_error (first.trans enacted)]
    | ok _ next =>
      rw [bind_of_ok enacted, bind_of_ok (first.trans enacted)]
      refine ih (done ++ [deed]) (by rw [split, List.append_assoc]; rfl) ?_
      rw [enactAll_append, bind_of_ok succeeded]
      exact bind_eq_ok_iff.mpr ⟨(), next, enacted, rfl⟩

/-- A step starts the nested runs to which it comes to hand a text on, and no others. -/
theorem starts_iff_delegates :
    Starts engine lexer run child text world ↔ Delegates engine lexer run child text world := by
  constructor
  · rintro ⟨nested, other, allowed, elsewhere, differs⟩
    refine Classical.byContradiction fun never => differs ?_
    have same (inner : Lexer) (piece : List Char) (before : World σ)
        (hands : Delegates engine lexer run inner piece before) :
        other inner piece before = nested inner piece before := by
      refine elsewhere inner piece before fun equal => never ?_
      obtain ⟨rfl, rfl, rfl⟩ : inner = child ∧ piece = text ∧ before = world := by simpa using equal
      exact hands
    cases ahead : run.scan.ahead with
    | none => rw [step_of_ahead_none ahead, step_of_ahead_none ahead]
    | some rest =>
      rw [step_eq_carryOut ahead, step_eq_carryOut ahead]
      cases intent : lexer.intent engine.options run.scan rest with
      | fail => rfl
      | go deeds bytes =>
        have all := enactAll_congr [] ahead intent allowed same rfl rfl
        unfold Intent.carryOut
        dsimp only
        cases done : enactAll engine (some nested) lexer deeds run.counted with
        | error => rw [bind_of_error done, bind_of_error (all.trans done)]
        | ok => rw [bind_of_ok done, bind_of_ok (all.trans done)]
  · rintro ⟨levels, comes, some_text, resolved⟩
    exact starts_of_comesTo levels comes some_text resolved

/-! ### The tables of nested runs -/

variable {outermost : Table} {start : Run σ}

/-- The table that is found for a target is one that the registry serves. -/
theorem served_of_resolve (belongs : engine.registry.Serves outermost lexer.table) {target : Target}
    {here found : Run σ} {table : Table} (built : here.world.cache.BuiltFrom engine.registry)
    (resolved : resolve engine lexer target here = .ok table found) :
    engine.registry.Serves outermost table ∧ found.world.cache.BuiltFrom engine.registry := by
  cases target with
  | current =>
    cases resolved
    exact ⟨belongs, built⟩
  | named language =>
    obtain ⟨later, serves⟩ := built.table language
    unfold resolve at resolved
    dsimp only at resolved
    split at resolved
    · rename_i shared world answer
      cases resolved
      have same : (here.world.table engine.registry language).2 = world := congrArg Prod.snd answer
      refine ⟨.inr (serves shared (congrArg Prod.fst answer)), ?_⟩
      show world.cache.BuiltFrom engine.registry
      rw [← same]
      exact later
    · cases resolved

/-- A step hands texts on to tables that the registry serves. -/
theorem Delegates.served (belongs : engine.registry.Serves outermost lexer.table)
    (built : run.world.cache.BuiltFrom engine.registry)
    (hands : Delegates engine lexer run child text world) :
    engine.registry.Serves outermost child.table ∧ world.cache.BuiltFrom engine.registry := by
  cases hands with
  | mk levels comes some_text resolved =>
    obtain ⟨_, done, _, _, _, _, succeeded⟩ := comes
    have drifts := drift_builtFrom engine
    have kept := carries_enactAll drifts (nestedCarries_nestedRun drifts (lexer.levelsLeft engine)) lexer
      done run.counted built
    rw [succeeded] at kept
    exact served_of_resolve belongs kept resolved

/-- What a run comes through uses tables that the registry serves. -/
theorem served_of_reaches (belongs : engine.registry.Serves outermost lexer.table)
    (built : start.world.cache.BuiltFrom engine.registry)
    (reaches : Reaches engine lexer start child run) :
    engine.registry.Serves outermost child.table ∧ run.world.cache.BuiltFrom engine.registry := by
  induction reaches with
  | start => exact ⟨belongs, built⟩
  | @step child run next _ _ stepped ih =>
    have kept := carries_lexerStep (drift_builtFrom engine) child run ih.2
    rw [stepped] at kept
    exact ⟨ih.1, kept⟩
  | nest _ _ starts ih => exact (starts_iff_delegates.mp starts).served ih.1 ih.2

/-- A scan of the child on the piece begins in what operations on a scan of the lexer come through: as this
scan itself, or in a run that is nested in it. -/
def Begins (engine : Engine σ) (lexer : Lexer) (start : Run σ) (child : Lexer) (piece : List Char)
    (world : World σ) : Prop :=
  ∃ program, Reaches engine lexer (lexer.operate engine program start).2 child
    ⟨.start child.table piece, world⟩

/-- The scan on which nothing was done yet is the first that begins. -/
theorem Begins.first : Begins engine lexer ⟨.start lexer.table text, world⟩ lexer text world :=
  ⟨[], .start⟩

/-- All that begins uses tables that the registry serves. -/
theorem Begins.served {piece : List Char} {world : World σ}
    (belongs : engine.registry.Serves outermost lexer.table)
    (built : start.world.cache.BuiltFrom engine.registry)
    (begins : Begins engine lexer start child piece world) :
    engine.registry.Serves outermost child.table ∧ world.cache.BuiltFrom engine.registry := by
  obtain ⟨program, reaches⟩ := begins
  have kept : (lexer.operate engine program start).2.world.cache.BuiltFrom engine.registry :=
    Lexer.keeps_operate (carries_lexerStep (drift_builtFrom engine) lexer) program built
  exact served_of_reaches belongs kept reaches

/-! ### How errors come up -/

/-- A step that comes to a deed that fails fails with its error. -/
theorem step_fails_of_comesTo {here after : Run σ} {deed : Deed} {error : ScanError}
    (comes : ComesTo engine lexer run here deed)
    (failed : enact engine (nestedRun engine (lexer.levelsLeft engine)) lexer deed here =
      .error error after) : lexer.step engine run = .error error after := by
  obtain ⟨text, done, rest, bytes, ahead, intent, succeeded⟩ := comes
  refine step_eq_error_iff.mpr (.inr ⟨text, ahead, .inr ⟨_, bytes, intent, ?_⟩⟩)
  rw [enactAll_append, bind_of_ok succeeded]
  exact bind_eq_error_iff.mpr (.inl failed)

/-- A step that starts a nested run that fails fails with its error. -/
theorem step_fails_of_starts {error : ScanError} {ended : Run σ}
    (starts : Starts engine lexer run child text world)
    (failed : child.drive engine ⟨.start child.table text, world⟩ = .error error ended) :
    ∃ after, lexer.step engine run = .error error after ∧ after.world = ended.world := by
  cases starts_iff_delegates.mp starts with
  | @mk here found target _ offset table levels comes some_text resolved =>
    obtain ⟨nested, allowed⟩ : ∃ nested, nestedRun engine (lexer.levelsLeft engine) = some nested :=
      Option.ne_none_iff_exists'.mp (mt nestedRun_eq_none_iff.mp (Nat.not_le.mpr levels))
    rw [← nestedRun_eq_drive allowed rfl] at failed
    obtain ⟨after, handed, same⟩ : ∃ after, enact engine (nestedRun engine (lexer.levelsLeft engine)) lexer
        (.delegate target text offset) here = .error error after ∧ after.world = ended.world := by
      rw [enact_delegate some_text, bind_of_ok resolved, allowed]
      exact ⟨_, delegateTo_eq_error_iff.mpr ⟨ended, failed, rfl⟩, rfl⟩
    exact ⟨after, step_fails_of_comesTo comes handed, same⟩

/-- A run fails if one that it comes through does. -/
theorem exists_drive_error {error : ScanError} {ended : Run σ}
    (reaches : Reaches engine lexer start child run)
    (failed : child.drive engine run = .error error ended) :
    ∃ last, lexer.drive engine start = .error error last ∧ last.world = ended.world := by
  induction reaches generalizing ended with
  | start => exact ⟨ended, failed, rfl⟩
  | step _ unfinished stepped ih => exact ih ((Lexer.drive_of_ok unfinished stepped).trans failed)
  | nest _ unfinished starts ih =>
    obtain ⟨after, stepped, world⟩ := step_fails_of_starts starts failed
    obtain ⟨last, driven, same⟩ := ih (Lexer.drive_of_error unfinished stepped)
    exact ⟨last, driven, same.trans world⟩

/-! ### Where errors are raised -/

/-- The step from the run works in a run of the inner lexer: in this one, or in what a nested run comes
through that it starts. -/
inductive WorksIn (engine : Engine σ) (lexer : Lexer) (run : Run σ) : Lexer → Run σ → Prop where
  | self : WorksIn engine lexer run lexer run
  | nested {child inner : Lexer} {text : List Char} {world : World σ} {here : Run σ}
      (starts : Starts engine lexer run child text world)
      (reaches : Reaches engine child ⟨.start child.table text, world⟩ inner here)
      (unfinished : here.scan.isDone = false) : WorksIn engine lexer run inner here

theorem WorksIn.reaches {inner : Lexer} {here : Run σ} (unfinished : run.scan.isDone = false)
    (works : WorksIn engine lexer run inner here) :
    Reaches engine lexer run inner here ∧ here.scan.isDone = false := by
  cases works with
  | self => exact ⟨.start, unfinished⟩
  | nested starts reaches undone => exact ⟨(Reaches.start.nest unfinished starts).trans reaches, undone⟩

/-- A step fails if it works in a run whose next step does. -/
theorem WorksIn.step_fails {inner : Lexer} {here ended : Run σ} {error : ScanError}
    (works : WorksIn engine lexer run inner here)
    (failed : inner.step engine here = .error error ended) :
    ∃ after, lexer.step engine run = .error error after := by
  cases works with
  | self => exact ⟨ended, failed⟩
  | nested starts reaches unfinished =>
    obtain ⟨_, driven, _⟩ := exists_drive_error reaches (Lexer.drive_of_error unfinished failed)
    obtain ⟨after, stepped, _⟩ := step_fails_of_starts starts driven
    exact ⟨after, stepped⟩

/-- A step that fails works in a run that fails by itself. -/
theorem exists_worksIn {after : Run σ} {error : ScanError}
    (failed : lexer.step engine run = .error error after) :
    ∃ inner here, WorksIn engine lexer run inner here ∧ Raises engine inner here error := by
  rcases raises_or_starts failed with raises | ⟨child, piece, world, ended, starts, _, _, driven, _⟩
  · exact ⟨lexer, run, .self, raises⟩
  · obtain ⟨inner, part, here, ⟨before, reaches, passed⟩, unfinished, _, raises⟩ :=
      exists_failsIn driven
    exact ⟨inner, here, .nested starts (reaches.trans passed.reaches) unfinished, raises⟩

/-- A run that fails comes through one that fails by itself. -/
theorem exists_reaches_of_drive_error {after : Run σ} {error : ScanError}
    (failed : lexer.drive engine run = .error error after) :
    ∃ inner here, Reaches engine lexer run inner here ∧ here.scan.isDone = false ∧
      Raises engine inner here error := by
  obtain ⟨last, passed, unfinished, stepped⟩ := drive_eq_error_iff.mp failed
  obtain ⟨inner, here, works, raises⟩ := exists_worksIn stepped
  obtain ⟨reaches, undone⟩ := works.reaches unfinished
  exact ⟨inner, here, passed.reaches.trans reaches, undone, raises⟩

end TableLexer
