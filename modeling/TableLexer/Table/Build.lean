/-
**Building a table from its description.**

A description can be built when its states have distinct names, one of them `root`, every pattern
compiles, every group that a behaviour reads exists in its pattern, and every state that is pushed is
declared. Otherwise the first fault is reported: a repeated state before a missing root, these
before the faults of the rules, and for one rule the pattern before its groups before its states.
-/

import TableLexer.Table.Basic

namespace TableLexer

/-- Why there is no table. -/
inductive BuildError where
  | invalidPattern (language state : String) (index : Nat)
  | unknownState (language state : String) (index : Nat) (target : String)
  | missingGroup (language state : String) (index group groups : Nat)
  | duplicateState (language state : String)
  | missingRoot (language : String)
  | unknownLanguage (name : String)
  deriving DecidableEq, Repr

namespace BuildError

/-- The name of a rule in messages, by its state and its place there. -/
def rulePosition (state : String) (index : Nat) : String :=
  s!"rule #{index} in state `{state}`"

/-- The message of the error. For an invalid pattern it stops where a colon and the diagnosis of the
pattern would follow: why a pattern does not compile is left out. -/
def message : BuildError → String
  | invalidPattern language state index =>
    s!"{language}: invalid pattern for {rulePosition state index}"
  | unknownState language state index target =>
    s!"{language}: {rulePosition state index} pushes unknown state `{target}`"
  | missingGroup language state index group groups =>
    s!"{language}: {rulePosition state index} uses group {group} but the pattern has {groups}"
  | duplicateState language state => s!"{language}: state `{state}` is declared twice"
  | missingRoot language => s!"{language}: missing `{rootName}` state"
  | unknownLanguage name => s!"unknown language `{name}`"

end BuildError

/-- The first name that occurred earlier in the list or among those seen before. -/
def firstRepeated? (seen : List String) : List String → Option String
  | [] => none
  | name :: rest =>
    if seen.contains name then some name else firstRepeated? (name :: seen) rest

namespace Table

/-- What the rules of a description are built with. -/
structure Setting where
  language : String
  flags : Pattern.Flags
  /-- The names of all states, in the order of their declaration. -/
  names : List String

/-- Builds the rule at a place of a state. -/
def buildRule (setting : Setting) (state : String) (index : Nat) (source : RuleSource) :
    Except BuildError Rule :=
  match Pattern.Regex.compile? setting.flags source.pattern with
  | none => .error (.invalidPattern setting.language state index)
  | some regex =>
    match source.behavior.groups.find? (regex.groupCount < ·) with
    | some group =>
      .error (.missingGroup setting.language state index group regex.groupCount)
    | none =>
      let find (target : String) : Except BuildError StateId :=
        match stateIndex? setting.names target with
        | some id => .ok id
        | none => .error (.unknownState setting.language state index target)
      (source.behavior.resolve find).map fun behavior => ⟨source.pattern, regex, behavior⟩

/-- Builds the rules of a state from the given place on. -/
def buildRules (setting : Setting) (state : String) :
    Nat → List RuleSource → Except BuildError (List Rule)
  | _, [] => .ok []
  | index, source :: rest => do
    let rule ← buildRule setting state index source
    let rules ← buildRules setting state (index + 1) rest
    return rule :: rules

/-- Builds states in the order of their declaration. -/
def buildStates (setting : Setting) :
    List (String × List RuleSource) → Except BuildError (List State)
  | [] => .ok []
  | (name, sources) :: rest => do
    let rules ← buildRules setting name 0 sources
    let states ← buildStates setting rest
    return ⟨name, rules⟩ :: states

/-- Builds the table of a language. -/
def build (descriptor : Descriptor) (source : TableSource) : Except BuildError Table :=
  let names := source.states.map Prod.fst
  match firstRepeated? [] names with
  | some name => .error (.duplicateState descriptor.name name)
  | none =>
    match stateIndex? names rootName with
    | none => .error (.missingRoot descriptor.name)
    | some root =>
      (buildStates ⟨descriptor.name, source.flags, names⟩ source.states).map fun states =>
        ⟨descriptor, states, root⟩

end Table

end TableLexer
