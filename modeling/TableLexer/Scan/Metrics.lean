/-
**Counters of a run.** A run counts what its nested runs do as its own. How long it takes is not among the
counters: the host of the command line tells that (`CommandLine.Host.timed`).
-/

namespace TableLexer

/-- What a run has done. -/
structure Metrics where
  /-- Choices of a rule that were attempted. -/
  steps : Nat := 0
  /-- Tokens that the sink accepted. -/
  tokens : Nat := 0
  /-- Nested runs that were started. -/
  delegations : Nat := 0
  /-- Error tokens for characters that no rule covers. -/
  fallbacks : Nat := 0
  /-- The depth of the deepest nested run, 0 when there was none. -/
  maxDepth : Nat := 0
  deriving DecidableEq, Repr

/-- The counters with those of a nested run of the given depth added. -/
def Metrics.absorb (metrics child : Metrics) (depth : Nat) : Metrics where
  steps := metrics.steps + child.steps
  tokens := metrics.tokens + child.tokens
  delegations := metrics.delegations + (child.delegations + 1)
  fallbacks := metrics.fallbacks + child.fallbacks
  maxDepth := max (max metrics.maxDepth depth) child.maxDepth

end TableLexer
