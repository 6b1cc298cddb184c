/-
**White space of every script**: the characters with the property White_Space.
-/

import TableLexer.Text.CharRange

namespace TableLexer.Text

/-- The white space characters: tab to carriage return, space, next line, the no-break space, the
typographic spaces, the line and paragraph separators and the ideographic space. -/
def blankRanges : List (Nat × Nat) :=
  [(0x9, 0xd), (0x20, 0x20), (0x85, 0x85), (0xa0, 0xa0), (0x1680, 0x1680), (0x2000, 0x200a),
   (0x2028, 0x2029), (0x202f, 0x202f), (0x205f, 0x205f), (0x3000, 0x3000)]

/-- The character is white space. -/
def isBlank (c : Char) : Bool :=
  inRanges c.toNat blankRanges

end TableLexer.Text
