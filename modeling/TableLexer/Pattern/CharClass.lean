/-
**Classes of characters that have a name**: the classes of the language, which have an escape of
their own, and the ASCII classes, which stand in brackets as in `[:alpha:]`.
-/

import TableLexer.Pattern.CharSet

namespace TableLexer.Pattern

/-- The classes of characters with an escape of their own. -/
inductive CharClass where
  | digit
  | blank
  | word
  deriving DecidableEq, Repr

/-- The characters of the class. -/
def CharClass.set : CharClass → CharSet
  | .digit => ⟨Text.digitRanges⟩
  | .blank => ⟨Text.blankRanges⟩
  | .word => ⟨Text.wordRanges⟩

/-- The ASCII class of a name. -/
def asciiClass? (name : List Char) : Option CharSet :=
  let digit := CharSet.ofRange '0' '9'
  let upper := CharSet.ofRange 'A' 'Z'
  let lower := CharSet.ofRange 'a' 'z'
  if name = "alnum".toList then some (.unions [digit, upper, lower])
  else if name = "alpha".toList then some (.union upper lower)
  else if name = "ascii".toList then some (.ofRange '\x00' '\x7f')
  else if name = "blank".toList then some (.ofList ['\t', ' '])
  else if name = "cntrl".toList then some (.union (.ofRange '\x00' '\x1f') (.single '\x7f'))
  else if name = "digit".toList then some digit
  else if name = "graph".toList then some (.ofRange '!' '~')
  else if name = "lower".toList then some lower
  else if name = "print".toList then some (.ofRange ' ' '~')
  else if name = "punct".toList then
    some (.unions [.ofRange '!' '/', .ofRange ':' '@', .ofRange '[' '`', .ofRange '{' '~'])
  else if name = "space".toList then some (.union (.ofRange '\t' '\r') (.single ' '))
  else if name = "upper".toList then some upper
  else if name = "word".toList then some (.unions [digit, upper, .single '_', lower])
  else if name = "xdigit".toList then
    some (.unions [digit, .ofRange 'A' 'F', .ofRange 'a' 'f'])
  else none

end TableLexer.Pattern
