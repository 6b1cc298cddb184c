/-
**Escapes of a pattern**: what may follow a backslash.

* the classes `\d \D \s \S \w \W`;
* the assertions `\A \z \b \B \< \>` and `\b{start}`, `\b{end}`, `\b{start-half}`, `\b{end-half}`;
* the control characters `\a \f \t \n \r \v`;
* a character by number: `\xHH`, `\uHHHH`, `\UHHHHHHHH`, or any of the three with `{H…}`;
* punctuation, which then stands for itself.

All else is refused. This leaves out of the dialect the classes by a Unicode property, `\pL`,
`\p{Greek}`, `\PL` and `\P{Greek}`, inside brackets too.
-/

import TableLexer.Pattern.Assertion
import TableLexer.Pattern.CharClass

namespace TableLexer.Pattern

/-- What an escape stands for. -/
inductive Escape where
  | literal (c : Char)
  | ofClass (cls : CharClass) (negated : Bool)
  | look (assertion : Assertion)
  deriving DecidableEq, Repr

/-- The character with the given code point, if there is one. -/
def charOfCode? (code : Nat) : Option Char :=
  if code.isValidChar then some (Char.ofNat code) else none

/-- The value of a hexadecimal digit. -/
def hexDigit? (c : Char) : Option Nat :=
  if '0'.toNat ≤ c.toNat ∧ c.toNat ≤ '9'.toNat then some (c.toNat - '0'.toNat)
  else if 'a'.toNat ≤ c.toNat ∧ c.toNat ≤ 'f'.toNat then some (c.toNat - 'a'.toNat + 10)
  else if 'A'.toNat ≤ c.toNat ∧ c.toNat ≤ 'F'.toNat then some (c.toNat - 'A'.toNat + 10)
  else none

/-- Reads exactly `count` hexadecimal digits on top of a value. -/
def readHex? : Nat → Nat → List Char → Option (Nat × List Char)
  | 0, value, text => some (value, text)
  | _ + 1, _, [] => none
  | count + 1, value, c :: rest =>
    (hexDigit? c).bind fun digit => readHex? count (value * 16 + digit) rest

/-- Reads hexadecimal digits up to the closing brace, which it drops. -/
def readBracedHex? (value : Nat) : List Char → Option (Nat × List Char)
  | [] => none
  | c :: rest =>
    if c = '}' then some (value, rest)
    else (hexDigit? c).bind fun digit => readBracedHex? (value * 16 + digit) rest

namespace Escape

/-- Reads the number of a character, with `digits` digits or between braces. -/
def readCode? (digits : Nat) : List Char → Option (Escape × List Char)
  | '{' :: '}' :: _ => none
  | '{' :: rest => do
    let (code, rest) ← readBracedHex? 0 rest
    return (.literal (← charOfCode? code), rest)
  | text => do
    let (code, rest) ← readHex? digits 0 text
    return (.literal (← charOfCode? code), rest)

/-- The character can be part of the name of a boundary. -/
def isBoundaryNameChar (c : Char) : Bool := c.isAlpha || c == '-'

/-- The boundary with the given name. -/
def boundary? (name : List Char) : Option Assertion :=
  if name = "start".toList then some .wordStart
  else if name = "end".toList then some .wordEnd
  else if name = "start-half".toList then some .wordStartHalf
  else if name = "end-half".toList then some .wordEndHalf
  else none

/-- Reads what follows `\b`. Braces that begin like a name must hold the name of a boundary; other
braces are left, for they count repetitions. -/
def readBoundary? : List Char → Option (Escape × List Char)
  | '{' :: rest =>
    match rest with
    | [] => none
    | c :: _ =>
      if isBoundaryNameChar c then
        match rest.dropWhile isBoundaryNameChar with
        | '}' :: after =>
          (boundary? (rest.takeWhile isBoundaryNameChar)).map fun assertion =>
            (.look assertion, after)
        | _ => none
      else some (.look .wordBoundary, '{' :: rest)
  | text => some (.look .wordBoundary, text)

/-- The ASCII characters that stand for themselves after a backslash: all but letters, digits and
the angle brackets. -/
def isEscapable (c : Char) : Bool :=
  decide (c.toNat < 0x80) && !c.isAlphanum && c != '<' && c != '>'

/-- Reads what follows a backslash. There is nothing to read at `p` and `P`, which would begin a class
by a Unicode property. -/
def read? : List Char → Option (Escape × List Char)
  | [] => none
  | c :: rest =>
    match c with
    | 'd' => some (.ofClass .digit false, rest)
    | 'D' => some (.ofClass .digit true, rest)
    | 's' => some (.ofClass .blank false, rest)
    | 'S' => some (.ofClass .blank true, rest)
    | 'w' => some (.ofClass .word false, rest)
    | 'W' => some (.ofClass .word true, rest)
    | 'A' => some (.look .textStart, rest)
    | 'z' => some (.look .textEnd, rest)
    | 'b' => readBoundary? rest
    | 'B' => some (.look .notWordBoundary, rest)
    | '<' => some (.look .wordStart, rest)
    | '>' => some (.look .wordEnd, rest)
    | 'a' => some (.literal '\x07', rest)
    | 'f' => some (.literal '\x0c', rest)
    | 't' => some (.literal '\t', rest)
    | 'n' => some (.literal '\n', rest)
    | 'r' => some (.literal '\r', rest)
    | 'v' => some (.literal '\x0b', rest)
    | 'x' => readCode? 2 rest
    | 'u' => readCode? 4 rest
    | 'U' => readCode? 8 rest
    | _ => if isEscapable c then some (.literal c, rest) else none

end Escape

end TableLexer.Pattern
