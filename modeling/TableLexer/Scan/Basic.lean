/-
**Scans and what surrounds them.**

A scan is a cursor in a text, a stack of states and counters. A lexer is a table together with its
place in the nesting of runs. An engine holds what all runs of a nesting share and do not change: the
registry, the options and the emitter; the world holds what they share and change: the sink, the
tables built so far and the log.
-/

import TableLexer.Language
import TableLexer.Scan.Error
import TableLexer.Scan.Metrics
import TableLexer.Scan.Options
import TableLexer.Scan.Sink
import TableLexer.Scan.Stack
import TableLexer.Text.Utf8Length

namespace TableLexer

/-- A scan of a text. -/
structure Scan where
  /-- How many bytes are consumed. -/
  cursor : Nat
  /-- The text from the cursor on: `none` when the cursor stands inside a character. -/
  ahead : Option (List Char)
  stack : StateStack
  metrics : Metrics := {}
  deriving DecidableEq, Repr

namespace Scan

/-- The scan of a text that starts in the root state of the table. -/
def start (table : Table) (text : List Char) : Scan :=
  { cursor := 0, ahead := some text, stack := .new table.root }

/-- The whole text is consumed. -/
def isDone (scan : Scan) : Bool := scan.ahead == some []

/-- A bound for the number of steps that are left: the bytes ahead, and 1 inside a character. -/
def stepsLeft (scan : Scan) : Nat := (scan.ahead.map Text.byteLength).getD 1

/-- Moves the cursor over so many bytes. -/
def advance (scan : Scan) (bytes : Nat) : Scan :=
  { scan with
    cursor := scan.cursor + bytes
    ahead := scan.ahead.bind (Text.dropBytes? · bytes) }

/-- The scan with its counters changed. -/
def count (scan : Scan) (change : Metrics → Metrics) : Scan :=
  { scan with metrics := change scan.metrics }

end Scan

/-- A table at its place in the nesting of runs. -/
structure Lexer where
  table : Table
  /-- How deep the run is nested; the outermost run has depth 0. -/
  depth : Nat := 0
  /-- Where the text of the run starts in the outermost text. -/
  base : Nat := 0
  deriving DecidableEq, Repr

/-- What the runs of a nesting share and do not change. -/
structure Engine (σ : Type) where
  registry : Registry
  options : Options
  emitter : Emitter σ

/-- What the runs of a nesting share and change. -/
structure World (σ : Type) where
  sink : σ
  cache : TableCache := {}
  log : Array Record := #[]

namespace World

variable {σ : Type}

/-- Adds records to the log. -/
def addRecords (world : World σ) (records : List Record) : World σ :=
  { world with log := world.log ++ records }

/-- Looks a language up and builds its table if need be. -/
def table (world : World σ) (registry : Registry) (name : String) :
    Except BuildError SharedTable × World σ :=
  let fetched := registry.table world.cache name
  (fetched.outcome, { world with cache := fetched.cache }.addRecords fetched.records)

end World

/-- A scan that is under way, and its world. -/
structure Run (σ : Type) where
  scan : Scan
  world : World σ

/-- Part of a step: it may fail, and what it did before it failed stays done. -/
abbrev StepM (σ : Type) := EStateM ScanError (Run σ)

/-- How a step runs a nested lexer on a text: in a given world, to its end or its first error. -/
abbrev NestedRun (σ : Type) :=
  Lexer → List Char → World σ → EStateM.Result ScanError (Run σ) Unit

end TableLexer
