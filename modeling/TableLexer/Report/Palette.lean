/-
**Colours of a terminal.** A colour is switched on and off by select-graphic-rendition codes around
the text.
-/

import TableLexer.Token

namespace TableLexer.Report

/-- How a piece of text is shown. -/
inductive Style where
  | dim
  | bold
  | red
  | green
  | yellow
  | blue
  | magenta
  | cyan
  | gray
  deriving DecidableEq, Repr

/-- The number of the code that switches the style on. -/
def Style.number : Style → String
  | bold => "1"
  | dim => "2"
  | red => "31"
  | green => "32"
  | yellow => "33"
  | blue => "34"
  | magenta => "35"
  | cyan => "36"
  | gray => "90"

/-- The code of the given number. -/
def graphicCode (number : String) : String := "\x1b[" ++ number ++ "m"

/-- Whether colours are used. -/
structure Palette where
  colored : Bool := false
  deriving DecidableEq, Repr

/-- The text in the style. Without colours it stays as it is. -/
def Palette.paint (palette : Palette) (text : String) (style : Style) : String :=
  if palette.colored then graphicCode style.number ++ text ++ graphicCode "0" else text

/-- The style of a kind, by the most special of the kinds with a style that it is. -/
def kindStyle (kind : Kind) : Style :=
  if kind.isA .keyword then .blue
  else if kind.isA .name then .cyan
  else if kind.isA .literalString then .green
  else if kind.isA .literal then .magenta
  else if kind.isA .comment then .gray
  else if kind = .error then .red
  else .yellow

end TableLexer.Report
