/-
**Places in a text**, the conditions that hold at them, and what a pattern matched.
-/

import TableLexer.Pattern.CharSet
import TableLexer.Pattern.Assertion

namespace TableLexer.Pattern

/-- A part of a text, by the byte positions of its two ends. -/
structure Span where
  start : Nat
  stop : Nat
  deriving DecidableEq, Repr

/-- A place in a text: its byte position, the character before it, and the text from it on, together
with what the groups have matched on the way, the latest first. -/
structure Place where
  offset : Nat
  before : Option Char
  rest : List Char
  groups : List (Nat × Span) := []
  deriving DecidableEq, Repr

namespace Place

/-- The place where a text begins. -/
def start (text : List Char) : Place := { offset := 0, before := none, rest := text }

/-- The place behind the next character, if that is `c` and followed by `rest`. -/
def advance (place : Place) (c : Char) (rest : List Char) : Place :=
  { place with offset := place.offset + c.utf8Size, before := some c, rest }

/-- The place behind a text, if the place is followed by it. -/
def after? : List Char → Place → Option Place
  | [], place => some place
  | c :: text, place =>
    match place.rest with
    | [] => none
    | d :: rest => if d = c then after? text (place.advance c rest) else none

/-- The place behind the next character, if that belongs to the set. -/
def afterOne? (set : CharSet) (place : Place) : Option Place :=
  match place.rest with
  | [] => none
  | c :: rest => if set.contains c then some (place.advance c rest) else none

/-- Notes that a group matched from `start` up to this place. -/
def close (place : Place) (index start : Nat) : Place :=
  { place with groups := (index, ⟨start, place.offset⟩) :: place.groups }

/-- The character before the place is a word character. -/
def afterWordChar (place : Place) : Bool := place.before.any Text.isWordChar

/-- The character at the place is a word character. -/
def atWordChar (place : Place) : Bool := place.rest.head?.any Text.isWordChar

end Place

/-- The condition holds at the place. -/
def Assertion.holds : Assertion → Place → Bool
  | textStart, place => place.offset == 0
  | textEnd, place => place.rest.isEmpty
  | lineStart, place => place.before.all (· == '\n')
  | lineEnd, place => place.rest.head?.all (· == '\n')
  | wordBoundary, place => place.afterWordChar != place.atWordChar
  | notWordBoundary, place => place.afterWordChar == place.atWordChar
  | wordStart, place => !place.afterWordChar && place.atWordChar
  | wordEnd, place => place.afterWordChar && !place.atWordChar
  | wordStartHalf, place => !place.afterWordChar
  | wordEndHalf, place => !place.atWordChar

/-- What a pattern matched in a text: the whole match and its groups. -/
structure Match where
  span : Span
  groups : List (Nat × Span)
  deriving DecidableEq, Repr

namespace Match

/-- The match from a position to a place. -/
def upTo (start : Nat) (ended : Place) : Match := ⟨⟨start, ended.offset⟩, ended.groups⟩

/-- The part that a group matched last; group 0 is the whole match. -/
def group? (found : Match) (index : Nat) : Option Span :=
  if index = 0 then some found.span else found.groups.lookup index

/-- The number of bytes of the whole match. -/
def length (found : Match) : Nat := found.span.stop - found.span.start

end Match

end TableLexer.Pattern
