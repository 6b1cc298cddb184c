/-
**The search for a match.**

A plan is followed with the rest of the search as an argument (`Plan.explore`): alternatives are tried in
order of preference, and the first that lets the rest of the search succeed is taken.

A search that fails from a point at a position fails from there however it comes there again. A memo
holds the points and positions that need not be tried (again): gates that were passed, and points from
which the search failed. Points that failed are noted only after a number of failures, because a short
search comes nowhere twice; from then on the work is bounded by the points times the positions.

A round of a loop takes a character, or ends at a gate that was passed before. So a loop ends within as
many rounds as characters are left, and the text that is left bounds the recursion (`Plan.rounds`).
-/

import TableLexer.Pattern.Memo
import TableLexer.Pattern.Place
import TableLexer.Pattern.Plan

namespace TableLexer.Pattern

/-- How a search ends: at a place, or with what it has learned. -/
inductive Outcome where
  | found (place : Place)
  | failed (memo : Memo)

/-- The rest of a search from a place on. -/
abbrev Search := Place → Memo → Outcome

namespace Outcome

/-- Tries something else after a failure. -/
@[inline] def orElse (outcome : Outcome) (other : Memo → Outcome) : Outcome :=
  match outcome with
  | found place => found place
  | failed memo => other memo

/-- Tries one and then the other, the first one first if it is preferred. -/
@[inline] def inOrder (preferred : Bool) (first second : Memo → Outcome) (memo : Memo) : Outcome :=
  if preferred then (first memo).orElse second else (second memo).orElse first

/-- Tries from a point at a position what has not failed from there before. -/
@[inline] def fromPoint (point offset : Nat) (attempt : Memo → Outcome) (memo : Memo) : Outcome :=
  if memo.knows point offset then failed memo
  else
    match attempt memo with
    | found place => found place
    | failed memo => failed (memo.noteFailure point offset)

end Outcome

namespace Plan

/-- Goes on from a place if there is one. -/
@[inline] def goOn (next : Search) (place : Option Place) (memo : Memo) : Outcome :=
  match place with
  | none => .failed memo
  | some place => next place memo

/-- Takes characters of a set, from a place between two of them. -/
def through (point : Nat) (greedy : Bool) (set : CharSet) (next : Search) : List Char → Search
  | [], place => Outcome.fromPoint point place.offset (next place)
  | c :: rest, place =>
    Outcome.fromPoint point place.offset
      (if set.contains c then
        Outcome.inOrder greedy (through point greedy set next rest (place.advance c rest))
          (next place)
      else next place)

/-- Goes round a loop from a place between two rounds, at most once for each character of the text that
was left at first. -/
def rounds (point : Nat) (greedy : Bool) (body : Search → Search) (next : Search) :
    List Char → Search
  | [], place => Outcome.fromPoint point place.offset (next place)
  | _ :: unread, place =>
    Outcome.fromPoint point place.offset
      (Outcome.inOrder greedy (body (rounds point greedy body next unread) place) (next place))

/-- Matches the plan at the place and then what follows it. -/
def explore : Plan → Search → Search
  | empty, next, place, memo => next place memo
  | literal text, next, place, memo => goOn next (place.after? text) memo
  | one set, next, place, memo => goOn next (place.afterOne? set) memo
  | look assertion, next, place, memo =>
    if assertion.holds place then next place memo else .failed memo
  | gate point, next, place, memo =>
    if memo.knows point place.offset then .failed memo
    else next place (memo.insert point place.offset)
  | seq first second, next, place, memo => first.explore (second.explore next) place memo
  | alt point first second, next, place, memo =>
    Outcome.fromPoint point place.offset
      (fun memo => (first.explore next place memo).orElse (second.explore next place)) memo
  | many point greedy set, next, place, memo => through point greedy set next place.rest place memo
  | loop point greedy body, next, place, memo =>
    rounds point greedy body.explore next place.rest place memo
  | group index body, next, place, memo =>
    body.explore (fun ended memo => next (ended.close index place.offset) memo) place memo

/-- Matches the plan at the place. -/
def matchFrom (plan : Plan) (place : Place) (memo : Memo) : Outcome :=
  plan.explore (fun ended _ => .found ended) place memo

/-- The first match that starts at the place or later. -/
def search (plan : Plan) : List Char → Nat → Option Char → Memo → Option Match
  | text, offset, before, memo =>
    match plan.matchFrom { offset, before, rest := text } memo with
    | .found ended => some (.upTo offset ended)
    | .failed memo =>
      match text with
      | [] => none
      | c :: rest => plan.search rest (offset + c.utf8Size) (some c) memo

/-- The first match in a text. A plan that is anchored is tried at the start only. -/
def find? (plan : Plan) (anchored : Bool) (text : List Char) : Option Match :=
  if anchored then
    match plan.matchFrom (.start text) .blank with
    | .found ended => some (.upTo 0 ended)
    | .failed _ => none
  else plan.search text 0 none .blank

end Plan

end TableLexer.Pattern
