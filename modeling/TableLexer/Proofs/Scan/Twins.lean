/-
**Two runs in the same world.**

Two engines that look up the same tables, send to the same emitter and nest as deep may still do different
things where no rule is chosen. Until then their runs are the same, and so they are if nothing but the
nested runs could be different and these are the same as well.

* `Lockstep.twins`: the runs of such engines go in lockstep.
* `stands_of_starts`: a step starts nested runs only on texts that stand where their bases say.
-/

import TableLexer.Proofs.Scan.Lockstep
import TableLexer.Proofs.Scan.Reached

namespace TableLexer

open Step

variable {σ : Type}

/-- Two engines differ in the stall policy at most. -/
structure Engine.Twins (one other : Engine σ) : Prop where
  registry : one.registry = other.registry
  emitter : one.emitter = other.emitter
  maxDepth : one.options.maxDepth = other.options.maxDepth

/-- How the runs of two engines part, within a text. -/
structure Engine.Parting (one other : Engine σ) (text : List Char) where
  /-- The one run has failed with the error in its world, and the other goes on in its own. -/
  parted : ScanError → World σ → World σ → Prop
  /-- What holds between the worlds that the other run goes through. -/
  drift : World σ → World σ → Prop
  drifts : World.Drift other drift
  keeps : ∀ {error world before after}, parted error world before → drift before after →
    parted error world after
  intends : ∀ (lexer : Lexer) (scan : Scan) (rest : List Char), rest ≠ [] →
    Text.StandsAt text (lexer.base + scan.cursor) rest →
    lexer.intent one.options scan rest = lexer.intent other.options scan rest ∨
      ∃ error, lexer.intent one.options scan rest = .fail error ∧
        ∀ nested (run : Run σ), parted error run.world
          (endOf ((lexer.intent other.options scan rest).carryOut other nested lexer run)).world

/-- The runs of one engine never part. -/
def Engine.Parting.never (engine : Engine σ) (text : List Char) : engine.Parting engine text where
  parted _ _ _ := False
  drift _ _ := True
  drifts := World.drift_trivial _
  keeps parted _ := parted
  intends _ _ _ _ _ := .inl rfl

namespace Lockstep

variable {one other : Engine σ} {text : List Char} {outermost : Table}

/-- The runs of two engines that differ in the stall policy at most go in lockstep, in the same world. -/
def twins (same : one.Twins other) (starts : other.registry.StartsAtCursor outermost)
    (parting : one.Parting other text) : Lockstep one other where
  deeper := 0
  further := 0
  member := other.registry.Serves outermost
  placed := Text.StandsAt text
  worlds world twin := world = twin ∧ twin.cache.BuiltFrom other.registry
  parted := parting.parted
  drift := parting.drift
  placement := starts.placement text
  drifts := parting.drifts
  keeps := parting.keeps
  limit := Nat.le_of_eq same.maxDepth
  exceeds _ fewer := absurd same.maxDepth (Nat.ne_of_lt fewer)
  notes := by
    rintro world _ record ⟨rfl, built⟩
    exact ⟨congrArg (world.addRecords [·]) record.moved_zero, built⟩
  looksUp := by
    rintro world _ name ⟨rfl, built⟩
    rw [same.registry]
    exact ⟨rfl, ⟨rfl, (built.table name).1⟩, fun shared found => .inr ((built.table name).2 shared found)⟩
  offers := by
    rintro world _ token ⟨rfl, built⟩
    rw [same.emitter]
    cases other.emitter.emit token world.sink with
    | ok _ sink => exact ⟨rfl, built⟩
    | error message sink => exact ⟨rfl, rfl, built⟩
  intends := by
    intro lexer scan rest some_text stands
    rw [Lexer.moved_zero, scan.deepened_zero, Intent.moved_zero]
    rcases parting.intends lexer scan rest some_text stands with equal | ⟨error, fails, parts⟩
    · exact .inl equal
    · refine .inr ⟨error, fails, ?_⟩
      rintro nested _ run ⟨rfl, _⟩
      exact parts nested run

variable {same : one.Twins other} {starts : other.registry.StartsAtCursor outermost}
  {parting : one.Parting other text} {result : EStateM.Result ScanError (Run σ) Unit}

/-- A run goes in lockstep with itself. -/
theorem abreast_self (built : (endOf result).world.cache.BuiltFrom other.registry) :
    (twins same starts parting).Abreast result result := by
  have runs (run : Run σ) (built : run.world.cache.BuiltFrom other.registry) :
      (twins same starts parting).Runs run run := ⟨run.scan.deepened_zero.symm, rfl, built⟩
  cases result with
  | ok a run => exact .ok (runs run built)
  | error error run =>
    have abreast (failed : ScanError) (moved : failed = error.moved 0 0) :
        (twins same starts parting).Abreast (.error failed run : EStateM.Result _ _ Unit)
          (.error error run) := by
      rw [moved]
      exact .error error (runs run built)
    exact abreast error error.moved_zero.symm

end Lockstep

/-- A step of a run, on a text that stands where its base says, starts nested runs only on such texts. -/
theorem stands_of_starts {engine : Engine σ} {lexer child : Lexer} {text piece : List Char}
    {outermost : Table} {run : Run σ} {world : World σ}
    (starts : engine.registry.StartsAtCursor outermost)
    (belongs : engine.registry.Serves outermost lexer.table)
    (built : run.world.cache.BuiltFrom engine.registry)
    (here : ∀ rest, run.scan.ahead = some rest →
      Text.StandsAt text (lexer.base + run.scan.cursor) rest)
    (unfinished : run.scan.isDone = false) (nests : Starts engine lexer run child piece world) :
    engine.registry.Serves outermost child.table ∧ Text.StandsAt text child.base piece ∧
      world.cache.BuiltFrom engine.registry := by
  obtain ⟨nested, other, allowed, elsewhere, differs⟩ := nests
  refine Classical.byContradiction fun strange => differs ?_
  -- The step does not see a run that is not of this kind, so it cannot tell the nested runs apart.
  let steps := Lockstep.twins ⟨rfl, rfl, rfl⟩ starts (.never engine text)
  have carries := nestedCarries_nestedRun (drift_builtFrom engine) _ nested allowed
  have nestings : steps.Nestings (some other) (some nested) := by
    refine ⟨?_, fun _ _ _ => trivial⟩
    rintro inner part before _ member stands _ ⟨rfl, from_registry⟩
    have same : other inner part before = nested inner part before := by
      refine elsewhere inner part before fun equal => strange ?_
      obtain ⟨rfl, rfl, rfl⟩ : inner = child ∧ part = piece ∧ before = world := by simpa using equal
      exact ⟨member, stands, from_registry⟩
    show steps.Abreast (other inner part before) _
    rw [same]
    exact Lockstep.abreast_self (carries inner part before from_registry)
  have runs : steps.Runs run run := ⟨run.scan.deepened_zero.symm, rfl, built⟩
  rcases (Lockstep.abreast_step nestings belongs runs here unfinished).eq_or_parted rfl rfl And.left with
    same | ⟨_, _, _, parts⟩
  · exact same
  · exact parts.elim

end TableLexer
