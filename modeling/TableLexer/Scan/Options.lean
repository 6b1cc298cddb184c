/-
**Options of a scan.**
-/

namespace TableLexer

/-- What to do where no rule matches. -/
inductive StallPolicy where
  /-- End the run with an error. -/
  | strict
  /-- Make the next character an error token and go on. -/
  | lenient
  deriving DecidableEq, Repr

/-- Options of a scan. -/
structure Options where
  stall : StallPolicy := .strict
  /-- How deep runs may nest; the outermost run has depth 0. -/
  maxDepth : Nat := 32
  /-- Log every choice of a rule. -/
  trace : Bool := false
  deriving DecidableEq, Repr

end TableLexer
