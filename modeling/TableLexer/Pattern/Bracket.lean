/-
**Brackets of a pattern**: `[…]` and all that may stand inside.

A bracket holds characters, ranges, escapes, named ASCII classes such as `[:alpha:]`, and further
brackets. `&&`, `--` and `~~` combine what stands before them with what stands after, from the left.
A `^` at the front negates the bracket; a `]` at the front and any `-` there stand for themselves.
-/

import TableLexer.Pattern.Escape
import TableLexer.Pattern.SetTerm

namespace TableLexer.Pattern

/-- A bracket that is being read: the set operation that waits for its second operand, and the
items read since, the latest first. -/
structure OpenBracket where
  negated : Bool := false
  pending : Option (SetOperation × SetTerm) := none
  items : List SetTerm := []
  deriving DecidableEq, Repr

namespace OpenBracket

/-- Adds an item. -/
def add (bracket : OpenBracket) (item : SetTerm) : OpenBracket :=
  { bracket with items := item :: bracket.items }

/-- The term read so far. -/
def value (bracket : OpenBracket) : SetTerm :=
  let items := SetTerm.ofItems bracket.items.reverse
  match bracket.pending with
  | none => items
  | some (operation, left) => .combine operation left items

/-- Makes the term read so far the first operand of an operation. -/
def operate (bracket : OpenBracket) (operation : SetOperation) : OpenBracket :=
  { bracket with pending := some (operation, bracket.value), items := [] }

/-- The term of the closed bracket. -/
def close (bracket : OpenBracket) : SetTerm := .bracket bracket.value bracket.negated

/-- Reads a `]` at the front of a bracket, which stands for itself. -/
def readClosing (bracket : OpenBracket) : List Char → OpenBracket × List Char
  | ']' :: rest => (bracket.add (.single ']'), rest)
  | text => (bracket, text)

/-- Reads the front of a bracket: a `^`, then any number of `-` or, without these, a `]`. -/
def ofFront (text : List Char) : OpenBracket × List Char :=
  let (negated, text) :=
    match text with
    | '^' :: rest => (true, rest)
    | text => (false, text)
  match text with
  | '-' :: _ =>
    let dashes := (text.takeWhile (· == '-')).map SetTerm.single
    ({ negated, items := dashes }, text.dropWhile (· == '-'))
  | text => readClosing { negated } text

end OpenBracket

/-- Reads `:name:]` or `:^name:]` behind a bracket, if that names an ASCII class. -/
def readAsciiClass? : List Char → Option (SetTerm × List Char)
  | ':' :: text =>
    let (negated, text) :=
      match text with
      | '^' :: rest => (true, rest)
      | text => (false, text)
    match text.dropWhile (· != ':') with
    | ':' :: ']' :: rest =>
      (asciiClass? (text.takeWhile (· != ':'))).map fun set => (.ascii set negated, rest)
    | _ => none
  | _ => none

/-- Reads one item of a bracket: a character or an escape. An assertion is no item. -/
def readItem? : List Char → Option (Escape × List Char)
  | [] => none
  | '\\' :: text => do
    let (escape, rest) ← Escape.read? text
    match escape with
    | .look _ => none
    | _ => return (escape, rest)
  | c :: rest => some (.literal c, rest)

/-- The term of a single item. -/
def itemTerm? : Escape → Option SetTerm
  | .literal c => some (.single c)
  | .ofClass cls negated => some (.ofClass cls negated)
  | .look _ => none

/-- Reads an item or a range of two characters. A `-` before `]` or before another `-` makes no
range. -/
def readRange? (text : List Char) : Option (SetTerm × List Char) := do
  let (first, rest) ← readItem? text
  match rest with
  | [] => none
  | '-' :: ']' :: _ | '-' :: '-' :: _ => return (← itemTerm? first, rest)
  | '-' :: afterDash =>
    let (last, rest) ← readItem? afterDash
    match first, last with
    | .literal low, .literal high =>
      if low.toNat ≤ high.toNat then some (.range low high, rest) else none
    | _, _ => none
  | _ => return (← itemTerm? first, rest)

/-- Reads brackets to the end of the outermost one. `fuel` bounds the number of items; `outer` holds
the brackets around the current one, the innermost first. -/
def readBracket? : Nat → OpenBracket → List OpenBracket → List Char → Option (SetTerm × List Char)
  | 0, _, _, _ => none
  | fuel + 1, bracket, outer, text =>
    match text with
    | [] => none
    | ']' :: rest =>
      match outer with
      | [] => some (bracket.close, rest)
      | parent :: outer => readBracket? fuel (parent.add bracket.close) outer rest
    | '[' :: rest =>
      match readAsciiClass? rest with
      | some (item, rest) => readBracket? fuel (bracket.add item) outer rest
      | none =>
        let (inner, rest) := OpenBracket.ofFront rest
        readBracket? fuel inner (bracket :: outer) rest
    | '&' :: '&' :: rest => readBracket? fuel (bracket.operate .intersection) outer rest
    | '-' :: '-' :: rest => readBracket? fuel (bracket.operate .difference) outer rest
    | '~' :: '~' :: rest => readBracket? fuel (bracket.operate .symmetricDifference) outer rest
    | text =>
      match readRange? text with
      | none => none
      | some (item, rest) => readBracket? fuel (bracket.add item) outer rest

/-- Reads the bracket that begins behind a `[`. -/
def SetTerm.read? (text : List Char) : Option (SetTerm × List Char) :=
  let (front, rest) := OpenBracket.ofFront text
  readBracket? (text.length + 1) front [] rest

end TableLexer.Pattern
