/-
**Assertions of a pattern.**
-/

namespace TableLexer.Pattern

/-- Conditions on a position that take no character. -/
inductive Assertion where
  | textStart
  | textEnd
  | lineStart
  | lineEnd
  | wordBoundary
  | notWordBoundary
  | wordStart
  | wordEnd
  | wordStartHalf
  | wordEndHalf
  deriving DecidableEq, Repr

end TableLexer.Pattern
