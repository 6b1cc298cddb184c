/-
**What a run tells about itself.**

A record is an event: the building of a table, the start of a nested run, the choice of a rule, a
character that no rule covers. Its level and its wording follow from the event.
-/

import TableLexer.Table.Build
import TableLexer.Text.Quoted

namespace TableLexer

/-- How much a record matters. -/
inductive Level where
  | trace
  | debug
  | warn
  | error
  deriving DecidableEq, Repr

/-- The name of a level. -/
def Level.name : Level → String
  | trace => "TRACE"
  | debug => "DEBUG"
  | warn => "WARN"
  | error => "ERROR"

/-- An event of a run. -/
inductive Record where
  /-- A table is about to be built. -/
  | building (key : String)
  /-- A table has been built. -/
  | compiled (language : String) (states rules : Nat)
  /-- A table cannot be built. -/
  | buildFailed (key : String) (error : BuildError)
  /-- A nested run of another lexer starts. -/
  | delegating (parent : String) (bytes offset : Nat) (child : String) (depth : Nat)
  /-- A rule has been chosen. -/
  | selected (language : String) (depth : Nat) (state : String) (offset index : Nat)
      (source : String) (text : List Char)
  /-- A character is skipped, because no rule covers it. -/
  | skipped (language : String) (offset : Nat) (state : String) (text : List Char)
  deriving DecidableEq, Repr

namespace Record

/-- The level of the record. -/
def level : Record → Level
  | building _ | compiled .. | delegating .. => .debug
  | buildFailed .. => .error
  | selected .. => .trace
  | skipped .. => .warn

/-- The wording of the record. -/
def message : Record → String
  | building key => s!"building rule table for {key}"
  | compiled language states rules => s!"{language}: compiled {states} states, {rules} rules"
  | buildFailed key error => s!"rule table for {key} failed to build: {error.message}"
  | delegating parent bytes offset child depth =>
    s!"{parent} delegates {bytes} bytes at {offset} to {child} (depth {depth})"
  | selected language depth state offset index source text =>
    s!"{language}[{depth}] {state} @{offset}: rule #{index} /{source}/ matched {Text.quoted text}"
  | skipped language offset state text =>
    s!"{language}: no rule matched at byte {offset} in `{state}`, skipping {Text.quoted text}"

end Record

end TableLexer
