/-
**Texts in quotation marks.**

A quoted text stands between two `"`. Inside, a quotation mark and a backslash follow a backslash,
tab, line feed, carriage return and NUL have a letter of their own, and every other character
without a visible form is shown by its number in hexadecimal, as in `\u{200b}`. All else stands for
itself, so a quoted text never holds a line break or a control character.
-/

import TableLexer.Text.Unshown

namespace TableLexer.Text

/-- The character by number: `\u`, then its code point in braces. -/
def escapeByNumber (c : Char) : List Char :=
  '\\' :: 'u' :: '{' :: (Nat.toDigits 16 c.toNat ++ ['}'])

/-- One character as it is written inside quotation marks. -/
def escape (c : Char) : List Char :=
  if c = '"' then ['\\', '"']
  else if c = '\\' then ['\\', '\\']
  else if c = '\t' then ['\\', 't']
  else if c = '\n' then ['\\', 'n']
  else if c = '\r' then ['\\', 'r']
  else if c = '\x00' then ['\\', '0']
  else if isUnshown c then escapeByNumber c
  else [c]

/-- The text in quotation marks. -/
def quoted (text : List Char) : String :=
  String.ofList ('"' :: (text.flatMap escape ++ ['"']))

end TableLexer.Text
