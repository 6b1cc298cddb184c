/-
**Whole runs.**

A run repeats steps until the text is consumed or a step fails. Every step that succeeds consumes a
byte at least, so the bytes ahead bound the number of steps. Runs nest: `nestedRun` goes down the
levels that are left, and where none is left there is no nested run.
-/

import TableLexer.Scan.Step

namespace TableLexer

variable {σ : Type}

/-- Repeats a step until the scan is done, `bound` times at most. -/
def repeatStep (step : StepM σ Unit) : Nat → StepM σ Unit
  | 0, run => .ok () run
  | bound + 1, run =>
    if run.scan.isDone then .ok () run
    else
      match step run with
      | .ok _ next => repeatStep step bound next
      | .error error failed => .error error failed

/-- Repeats a step until the scan is done. -/
def driveWith (step : StepM σ Unit) : StepM σ Unit := fun run =>
  repeatStep step run.scan.stepsLeft run

/-- How a lexer runs inside another when so many levels of nesting are left. -/
def nestedRun (engine : Engine σ) : Nat → Option (NestedRun σ)
  | 0 => none
  | levels + 1 =>
    some fun lexer text world =>
      driveWith (step engine (nestedRun engine levels) lexer) ⟨.start lexer.table text, world⟩

namespace Lexer

/-- How many levels of nesting are left below the lexer. -/
def levelsLeft (engine : Engine σ) (lexer : Lexer) : Nat := engine.options.maxDepth - lexer.depth

/-- One step of a scan of the lexer. -/
def step (engine : Engine σ) (lexer : Lexer) : StepM σ Unit :=
  TableLexer.step engine (nestedRun engine (lexer.levelsLeft engine)) lexer

/-- Steps until the text is consumed or a step fails. -/
def drive (engine : Engine σ) (lexer : Lexer) : StepM σ Unit := driveWith (lexer.step engine)

end Lexer

/-- How a run ended: with its counters or an error, and in which world. -/
structure Outcome (σ : Type) where
  result : Except ScanError Metrics
  world : World σ

/-- Runs a lexer on a whole text. -/
def Lexer.run (engine : Engine σ) (lexer : Lexer) (text : List Char) (world : World σ) : Outcome σ :=
  match lexer.drive engine ⟨.start lexer.table text, world⟩ with
  | .ok _ ended => ⟨.ok ended.scan.metrics, ended.world⟩
  | .error error ended => ⟨.error error, ended.world⟩

/-- Tokenizes a text as the language that answers to the name. -/
def Engine.tokenize (engine : Engine σ) (language : String) (text : List Char) (world : World σ) :
    Outcome σ :=
  match world.table engine.registry language with
  | (.ok shared, world) => ({ table := shared.table } : Lexer).run engine text world
  | (.error error, world) => ⟨.error (.build error), world⟩

end TableLexer
