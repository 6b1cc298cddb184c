/-
**Where tokens go.**

A run sends its tokens, in order, to an emitter, which keeps a state of its own and may refuse a
token; the run then ends at once.
-/

import TableLexer.Token

namespace TableLexer

/-- A receiver of tokens with states of type `σ`. -/
structure Emitter (σ : Type) where
  /-- Takes a token or refuses it with a message. -/
  emit : Token → EStateM String σ Unit

/-- A list of tokens that may have a limit. -/
structure Collector where
  tokens : Array Token := #[]
  /-- How many tokens there is room for. -/
  limit : Option Nat := none
  /-- What a token is refused with when there is no room. -/
  refusal : String := "sink full"
  deriving DecidableEq, Repr

namespace Collector

/-- There is room for one more token. -/
def hasRoom (collector : Collector) : Bool := collector.limit.all (collector.tokens.size < ·)

/-- The emitter that collects tokens while there is room. -/
def emitter : Emitter Collector where
  emit token := fun collector =>
    if collector.hasRoom then .ok () { collector with tokens := collector.tokens.push token }
    else .error collector.refusal collector

end Collector

end TableLexer
