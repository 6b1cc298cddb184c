/-
**Why a run ends early.**

Two of the errors mark a misuse and not a property of the text: a scan that stands inside a
character, which only a match that starts behind the cursor can bring about, and a lenient step at
the end of the text, where there is no character to skip.
-/

import TableLexer.Table.Build

namespace TableLexer

/-- Why a run ends early. Positions count bytes from the start of the outermost text. -/
inductive ScanError where
  /-- No rule of the state matches. -/
  | stall (offset : Nat) (state : String)
  /-- A rule leaves the only state that is left. -/
  | popRoot (offset : Nat)
  /-- A nested run would be too deep. -/
  | depthExceeded (limit offset : Nat)
  /-- A language that a rule names has no table. -/
  | build (error : BuildError)
  /-- The sink refuses a token. -/
  | emit (message : String)
  /-- The text cannot be read. -/
  | read (message : String)
  /-- The cursor stands inside a character. -/
  | insideCharacter (offset : Nat)
  /-- There is no character to skip. -/
  | nothingToSkip (offset : Nat)
  deriving DecidableEq, Repr

/-- The message of the error. -/
def ScanError.message : ScanError → String
  | stall offset state => s!"no rule matched at byte {offset} in state `{state}`"
  | popRoot offset => s!"pop of the last state at byte {offset}"
  | depthExceeded limit offset =>
    s!"delegation nested deeper than {limit} levels at byte {offset}"
  | build error => error.message
  | emit message => message
  | read message => s!"failed to read input: {message}"
  | insideCharacter offset => s!"byte {offset} is not a character boundary"
  | nothingToSkip offset => s!"no character to skip at byte {offset}"

end TableLexer
