/-
**Plans for matching a pattern.**

A plan is a pattern made ready for the search: counted repetition is written out, and every point at
which the search may go on in several ways has a number, as has every gate.

A loop whose body can match nothing could lead back to a point of its body without a character
taken. There a plan has gates: a gate is passed once at most at each position of the text, and a path
that comes to it again is cut off. Other points cannot be reached twice on one path at one position.
-/

import TableLexer.Pattern.Node

namespace TableLexer.Pattern

/-- A plan for matching a pattern. -/
inductive Plan where
  | empty
  | literal (text : List Char)
  | one (set : CharSet)
  | look (assertion : Assertion)
  /-- Is passed once at most at each position. -/
  | gate (point : Nat)
  | seq (first second : Plan)
  /-- The first alternative is preferred. -/
  | alt (point : Nat) (first second : Plan)
  /-- Takes any number of characters of the set; the greedy form prefers to go on. -/
  | many (point : Nat) (greedy : Bool) (set : CharSet)
  /-- Takes the body any number of times, each time a character at least; the greedy form prefers to
  go on. -/
  | loop (point : Nat) (greedy : Bool) (body : Plan)
  | group (index : Nat) (body : Plan)
  deriving DecidableEq, Repr

namespace Plan

/-- What is made with the numbers from a given one on: a plan, and the next number that is free. -/
abbrev Numbered := Nat → Plan × Nat

/-- Takes the body or nothing. -/
def optional (point : Nat) (greedy : Bool) (body : Plan) : Plan :=
  if greedy then alt point body empty else alt point empty body

/-- The plan behind a gate if there is need for one. -/
def behindGate (gated : Bool) (point : Nat) (plan : Plan) : Plan :=
  if gated then seq (gate point) plan else plan

/-- The plan before a gate if there is need for one. -/
def beforeGate (gated : Bool) (point : Nat) (plan : Plan) : Plan :=
  if gated then seq plan (gate point) else plan

/-- A body so many times, each time with numbers of its own. -/
def copies (body : Numbered) : Nat → Numbered
  | 0, fresh => (empty, fresh)
  | count + 1, fresh =>
    let (first, fresh) := body fresh
    let (rest, fresh) := copies body count fresh
    (seq first rest, fresh)

/-- A body at most so many times. -/
def upTo (gated greedy : Bool) (body : Numbered) : Nat → Numbered
  | 0, fresh => (empty, fresh)
  | count + 1, fresh =>
    let (first, next) := body (fresh + 2)
    let (rest, next) := upTo gated greedy body count next
    (behindGate gated fresh (optional (fresh + 1) greedy (seq first rest)), next)

/-- A body any number of times. -/
def star (point : Nat) (greedy : Bool) : Plan → Plan
  | one set => many point greedy set
  | body => loop point greedy body

/-- A body once or more. The first round is the same body as the others, with the same numbers, for it
goes on in the same way. -/
def plus (greedy nullable : Bool) (body : Numbered) : Numbered := fun fresh =>
  let (body, next) := body (fresh + 2)
  let round := beforeGate nullable fresh body
  (seq round (star (fresh + 1) greedy round), next)

end Plan

namespace Node

/-- The plan of a pattern with numbers from `fresh` on, and the next number that is free. `inLoop` says
that the pattern lies in a loop whose body can match nothing; a part that takes a character is then
no way back, so it counts as lying outside. -/
def planFrom (inLoop : Bool) (node : Node) : Plan.Numbered := fun fresh =>
  let inLoop := inLoop && node.nullable
  match node with
  | empty => (.empty, fresh)
  | literal text => (.literal text, fresh)
  | one set => (.one set, fresh)
  | look assertion => (.look assertion, fresh)
  | seq first second =>
    let (first, next) := first.planFrom inLoop fresh
    let (second, next) := second.planFrom inLoop next
    (.seq first second, next)
  | alt first second =>
    let (first, next) := first.planFrom inLoop (fresh + 2)
    let (second, next) := second.planFrom inLoop next
    (.behindGate inLoop fresh (.alt (fresh + 1) first second), next)
  | repeated least most greedy body =>
    match least, most with
    | 0, none =>
      if body.nullable then
        let (rounds, next) := Plan.plus greedy true (body.planFrom true) (fresh + 2)
        (.behindGate inLoop fresh (.optional (fresh + 1) greedy rounds), next)
      else
        let (body, next) := body.planFrom false (fresh + 2)
        let round := Plan.beforeGate inLoop fresh body
        (.behindGate inLoop fresh (.star (fresh + 1) greedy round), next)
    | least, none =>
      let (front, next) := Plan.copies (body.planFrom inLoop) (least - 1) fresh
      let (rounds, next) := Plan.plus greedy body.nullable (body.planFrom true) next
      (.seq front rounds, next)
    | least, some most =>
      let (front, next) := Plan.copies (body.planFrom inLoop) least fresh
      let (rest, next) := Plan.upTo inLoop greedy (body.planFrom inLoop) (most - least) next
      (.seq front rest, next)
  | group index body =>
    let (body, next) := body.planFrom inLoop fresh
    (.group index body, next)

/-- The plan of a pattern. -/
def plan (node : Node) : Plan := (node.planFrom false 0).1

end Node

end TableLexer.Pattern
