/-
**Text without terminal control.**

A log that is not shown on a terminal has no control characters but white space, and no control
sequences. A sequence begins with an escape character, and what follows it decides how the sequence
ends: a `[` begins parameters up to a letter or the like, other brackets and some letters begin a text
up to a terminator, and anything else is a sequence of one character.

White space of control interrupts a sequence that carries no text. What follows is shown up to the next
control character; there the sequence goes on, unless a character outside ASCII came between.
-/

namespace TableLexer.CommandLine

/-- What ends the text that a sequence carries, a new sequence apart. -/
inductive Terminator where
  /-- A bell. -/
  | bell
  /-- The byte that stands for the end of a string, also as part of a character. -/
  | stringEnd
  deriving DecidableEq, Repr

/-- Where a reader is among the parameters that come before a text. -/
inductive HeaderPart where
  | start
  | numbers
  | signs
  deriving DecidableEq, Repr

/-- Where a reader of control sequences is. -/
inductive ControlState where
  /-- Outside of sequences. -/
  | outside
  /-- Behind an escape character. -/
  | escape
  /-- Behind an escape character and blanks or signs. -/
  | intermediate
  /-- Among parameters. -/
  | parameters
  /-- Among the parameters that come before a text. -/
  | header (part : HeaderPart)
  /-- In a text that the sequence carries. -/
  | carried (terminator : Terminator)
  /-- In text that is shown and interrupts a sequence. -/
  | interrupted (sequence : ControlState)
  deriving DecidableEq, Repr

/-- The character ends the text that a sequence carries. -/
def Terminator.isEndedBy : Terminator → Char → Bool
  | bell, c => c == '\x07'
  | stringEnd, c => decide (0x80 ≤ c.toNat) && (String.utf8EncodeChar c).contains 0x9C

/-- Where a reader is behind one more character: `none` when that begins the text, as every character does
that is out of place. -/
def HeaderPart.next? (part : HeaderPart) (c : Char) : Option HeaderPart :=
  if c.toNat < 0x20 || 0x7F ≤ c.toNat then some part
  else if c.toNat < 0x30 then some signs
  else if part = signs || c == ':' || 0x40 ≤ c.toNat then none
  else if c.toNat < 0x3C || part = start then some numbers
  else none

namespace ControlState

/-- The control character is white space. -/
def isControlBlank (c : Char) : Bool := c == '\t' || c == '\n' || c == '\x0c' || c == '\r'

/-- The character takes the place of a sequence: cancel or substitute. -/
def isCancel (c : Char) : Bool := c == '\x18' || c == '\x1a'

/-- The character is shown where no sequence is. -/
def isShown (c : Char) : Bool := isControlBlank c || (decide (0x20 ≤ c.toNat) && c != '\x7f')

/-- The state behind an escape character and one more, which is no control character. -/
def afterEscape (c : Char) : ControlState :=
  if c == '[' then parameters
  else if c == ']' then carried .bell
  else if c == 'P' then header .start
  else if ['X', '^', '_'].contains c then carried .stringEnd
  else outside

/-- The state behind a character that is in the sequence, when that is no control character. -/
def inSequence (state : ControlState) (c : Char) : ControlState :=
  match state with
  | escape => if c.toNat < 0x30 then intermediate else if c.toNat < 0x7F then afterEscape c else escape
  | intermediate => if c.toNat < 0x30 || 0x7F ≤ c.toNat then intermediate else outside
  | parameters => if c.toNat < 0x40 || 0x7F ≤ c.toNat then parameters else outside
  | state => state

/-- The state behind a character, and whether the character is shown. -/
def next (state : ControlState) (c : Char) : ControlState × Bool :=
  if c == '\x1b' then (escape, false)
  else if isCancel c then (outside, false)
  else
    match state with
    | outside => (outside, isShown c)
    | header part => (((part.next? c).map header).getD (carried .stringEnd), false)
    | carried terminator =>
      (if terminator.isEndedBy c then outside else carried terminator, false)
    | interrupted sequence =>
      if !isShown c then (sequence, false)
      else (if c.toNat < 0x80 then interrupted sequence else outside, true)
    | state =>
      if isControlBlank c then (interrupted state, true)
      else if c.toNat < 0x20 then (state, false)
      else (state.inSequence c, false)

/-- The characters of a text that are shown. -/
def shown : ControlState → List Char → List Char
  | _, [] => []
  | state, c :: rest =>
    let (state, isShown) := state.next c
    if isShown then c :: shown state rest else shown state rest

end ControlState

/-- The text without control sequences and control characters. -/
def withoutControls (text : String) : String := String.ofList (ControlState.outside.shown text.toList)

end TableLexer.CommandLine
