/-
**Patterns that match at the cursor.**

A rule's pattern is written without an anchor and compiled as `\A(?:…)`, so that it matches at the
start of the text that is left. The wrapping is one of texts: a pattern whose own parentheses do not
balance is still compiled when the wrapped text balances.

Two things of the usual syntax lie outside the dialect, and a pattern with one of them is refused as if
it were malformed: classes by a Unicode property, such as `\pL` and `\p{Greek}` (see
`TableLexer.Pattern.Escape`), and the flags `x`, `U`, `u` and `R`, as in `(?-u:…)` (see
`TableLexer.Pattern.Flags`).
-/

import TableLexer.Pattern.Assembly
import TableLexer.Pattern.Search
import TableLexer.Pattern.Size.OfNode

namespace TableLexer.Pattern

/-- A compiled pattern. -/
structure Regex where
  plan : Plan
  /-- Every match starts at the start of the text. -/
  anchored : Bool
  /-- The number of its groups, apart from the whole match. -/
  groupCount : Nat
  deriving DecidableEq, Repr

/-- The text that is compiled for a pattern. -/
def anchoredText (source : String) : String := "\\A(?:" ++ source ++ ")"

namespace Regex

/-- The compiled form of a pattern. -/
def ofNode (node : Node) : Regex where
  plan := node.plan
  anchored := node.startsWith .textStart
  groupCount := node.groupCount

/-- Compiles a pattern: `none` when it is malformed, as one outside the dialect is, or too large. -/
def compile? (flags : Flags) (source : String) : Option Regex := do
  let node ← Node.parse? flags (anchoredText source).toList
  if node.fits then some (ofNode node) else none

/-- The first match in the text. -/
def find? (regex : Regex) (text : List Char) : Option Match := regex.plan.find? regex.anchored text

end Regex

end TableLexer.Pattern
