/-
**The parts of a written pattern.**

`Lexeme.readAll?` cuts the text of a pattern into characters, classes, assertions, brackets of
groups, bars, flag changes and quantifiers. Each part is at least one character long, so the length
of the text bounds the recursion.
-/

import TableLexer.Pattern.Bracket
import TableLexer.Pattern.Flags
import TableLexer.Text.Letter

namespace TableLexer.Pattern

/-- A part of a written pattern. -/
inductive Lexeme where
  | literal (c : Char)
  /-- `.` -/
  | anyChar
  /-- A class or a bracket. -/
  | oneOf (term : SetTerm)
  | look (assertion : Assertion)
  /-- `^` -/
  | caret
  /-- `$` -/
  | dollar
  /-- `|` -/
  | bar
  /-- `(`, with the name of the group if it has one -/
  | openGroup (name : Option (List Char))
  /-- `(?flags:` -/
  | openPlain (change : FlagChange)
  /-- `(?flags)` -/
  | setFlags (change : FlagChange)
  /-- `)` -/
  | close
  /-- `?`, `*`, `+` or a count in braces -/
  | times (least : Nat) (most : Option Nat) (greedy : Bool)
  deriving DecidableEq, Repr

namespace Lexeme

/-- Reads the `?` that makes a quantifier prefer the shorter match. -/
def readGreed (least : Nat) (most : Option Nat) : List Char → Lexeme × List Char
  | '?' :: rest => (.times least most false, rest)
  | text => (.times least most true, text)

/-- Counts are below this bound. -/
def countBound : Nat := 0x100000000

/-- Reads a decimal count with white space around it. -/
def readCount? (text : List Char) : Option (Nat × List Char) :=
  let text := text.dropWhile Text.isBlank
  let digits := text.takeWhile Char.isDigit
  let value := digits.foldl (fun value c => value * 10 + (c.toNat - '0'.toNat)) 0
  if digits.isEmpty || countBound ≤ value then none
  else some (value, (text.dropWhile Char.isDigit).dropWhile Text.isBlank)

/-- Reads a quantifier behind its `{`: `{n}`, `{n,}` or `{n,m}` with `n ≤ m`. -/
def readBraces? (text : List Char) : Option (Lexeme × List Char) := do
  let (least, rest) ← readCount? text
  match rest with
  | '}' :: rest => return readGreed least (some least) rest
  | ',' :: '}' :: rest => return readGreed least none rest
  | ',' :: rest =>
    let (most, rest) ← readCount? rest
    match rest with
    | '}' :: rest => if least ≤ most then return readGreed least (some most) rest else none
    | _ => none
  | _ => none

/-- The character can begin the name of a group. -/
def isNameStart (c : Char) : Bool := c == '_' || Text.isLetter c

/-- The character can go on with the name of a group. -/
def isNameChar (c : Char) : Bool :=
  c == '_' || c == '.' || c == '[' || c == ']' || Text.isLetterOrNumeral c

/-- Reads the name of a group and the `>` behind it. -/
def readName? (text : List Char) : Option (List Char × List Char) :=
  let name := text.takeWhile (· != '>')
  match name, text.dropWhile (· != '>') with
  | first :: others, '>' :: rest =>
    if isNameStart first && others.all isNameChar then some (name, rest) else none
  | _, _ => none

/-- Reads what follows a `(`. -/
def readOpening? : List Char → Option (Lexeme × List Char)
  | '?' :: 'P' :: '<' :: text | '?' :: '<' :: text =>
    (readName? text).map fun (name, rest) => (.openGroup (some name), rest)
  | '?' :: text =>
    match FlagChange.read? {} false false text with
    | some (change, ':' :: rest) => some (.openPlain change, rest)
    | some (change, ')' :: rest) => if change.isEmpty then none else some (.setFlags change, rest)
    | _ => none
  | text => some (.openGroup none, text)

/-- Reads one part of a pattern. -/
def read? : List Char → Option (Lexeme × List Char)
  | [] => none
  | c :: rest =>
    match c with
    | '(' => readOpening? rest
    | ')' => some (.close, rest)
    | '|' => some (.bar, rest)
    | '[' => (SetTerm.read? rest).map fun (term, rest) => (.oneOf term, rest)
    | '?' => some (readGreed 0 (some 1) rest)
    | '*' => some (readGreed 0 none rest)
    | '+' => some (readGreed 1 none rest)
    | '{' => readBraces? rest
    | '.' => some (.anyChar, rest)
    | '^' => some (.caret, rest)
    | '$' => some (.dollar, rest)
    | '\\' =>
      (Escape.read? rest).map fun (escape, rest) =>
        (match escape with
          | .literal c => .literal c
          | .ofClass cls negated => .oneOf (.ofClass cls negated)
          | .look assertion => .look assertion, rest)
    | c => some (.literal c, rest)

/-- Reads a text with at most `fuel` parts to its end. -/
def readMany? : Nat → List Char → Option (List Lexeme)
  | _, [] => some []
  | 0, _ :: _ => none
  | fuel + 1, text => do
    let (lexeme, rest) ← read? text
    return lexeme :: (← readMany? fuel rest)

/-- The parts of a pattern: `none` when some part is malformed. -/
def readAll? (text : List Char) : Option (List Lexeme) := readMany? text.length text

end Lexeme

end TableLexer.Pattern
