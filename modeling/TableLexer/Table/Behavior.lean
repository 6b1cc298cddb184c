/-
**What a rule does with a match.**

States are named while a table is described and numbered once it is built, so behaviours take the
kind of reference as a parameter.
-/

import TableLexer.Token

namespace TableLexer

/-- The language that a piece of text is handed to. -/
inductive Target where
  /-- The table that hands it over. -/
  | current
  /-- The registered language that answers to the name. -/
  | named (language : String)
  deriving DecidableEq, Repr

/-- A step of a composite behaviour. -/
inductive Action (State : Type) where
  | emit (group : Nat) (kind : Kind)
  | delegate (group : Nat) (target : Target)
  | push (state : State)
  | pop
  deriving DecidableEq, Repr

/-- What a rule does with a match. -/
inductive Behavior (State : Type) where
  /-- Makes the match one token. -/
  | emit (kind : Kind)
  /-- Makes the match one token and enters a state. -/
  | emitAndPush (kind : Kind) (state : State)
  /-- Makes the match one token and leaves the current state. -/
  | emitAndPop (kind : Kind)
  /-- Hands the match to a nested run. -/
  | delegate (target : Target)
  /-- Does several things with the groups of the match, in order. -/
  | composite (actions : List (Action State))
  deriving DecidableEq, Repr

namespace Action

variable {State Resolved : Type} {ε : Type}

/-- The group that the action reads. -/
def group? : Action State → Option Nat
  | emit group _ | delegate group _ => some group
  | push _ | pop => none

/-- The action with its state replaced. -/
def resolve (find : State → Except ε Resolved) : Action State → Except ε (Action Resolved)
  | emit group kind => .ok (.emit group kind)
  | delegate group target => .ok (.delegate group target)
  | push state => (find state).map .push
  | pop => .ok .pop

/-- The actions with their states replaced, or the error of the first that cannot be. -/
def resolveAll (find : State → Except ε Resolved) :
    List (Action State) → Except ε (List (Action Resolved))
  | [] => .ok []
  | action :: rest => do
    let action ← action.resolve find
    let rest ← resolveAll find rest
    return action :: rest

end Action

namespace Behavior

variable {State Resolved : Type} {ε : Type}

/-- The groups that the behaviour reads, in order. -/
def groups : Behavior State → List Nat
  | composite actions => actions.filterMap Action.group?
  | _ => []

/-- The behaviour with its states replaced, or the error of the first that cannot be. -/
def resolve (find : State → Except ε Resolved) : Behavior State → Except ε (Behavior Resolved)
  | emit kind => .ok (.emit kind)
  | emitAndPush kind state => (find state).map (.emitAndPush kind)
  | emitAndPop kind => .ok (.emitAndPop kind)
  | delegate target => .ok (.delegate target)
  | composite actions => (Action.resolveAll find actions).map .composite

end Behavior

end TableLexer
