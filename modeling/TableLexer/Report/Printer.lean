/-
**The printed form of tokens.**

Each token takes one line, `=== Kind: "text"`, with the text in quotation marks. A header names an
input, and a line of counters ends it. What is printed goes to a paper, which may have room for a
limited number of bytes.
-/

import TableLexer.Report.Duration
import TableLexer.Report.Palette
import TableLexer.Scan.Metrics
import TableLexer.Scan.Sink
import TableLexer.Text.Quoted
import TableLexer.Text.Utf8Length

namespace TableLexer.Report

/-- The line of a token. -/
def tokenLine (palette : Palette) (token : Token) : String :=
  "=== " ++ palette.paint token.kind.fullName (kindStyle token.kind) ++ ": " ++
    Text.quoted token.text.toList ++ "\n"

/-- The line that names an input. -/
def headerLine (palette : Palette) (name : String) : String := palette.paint name .bold ++ "\n"

/-- The line of counters, which ends with the time that was taken. -/
def metricsLine (palette : Palette) (metrics : Metrics) (elapsed : String) : String :=
  let bar := palette.paint "│" .dim
  let number (value : Nat) (style : Style) := palette.paint (toString value) style
  bar ++ " " ++ number metrics.tokens .green ++ " tokens  " ++
    bar ++ " " ++ number metrics.steps .blue ++ " steps  " ++
    bar ++ " " ++ number metrics.delegations .cyan ++ " delegations (depth " ++
    toString metrics.maxDepth ++ ")  " ++
    bar ++ " " ++ number metrics.fallbacks (if 0 < metrics.fallbacks then .red else .gray) ++
    " fallbacks  " ++
    bar ++ " " ++ elapsed ++ "\n"

/-- What is printed on. -/
structure Paper where
  written : String := ""
  /-- For how many more bytes there is room; no limit if `none`. -/
  room : Option Nat := none
  /-- The room ended inside a character. -/
  torn : Bool := false
  deriving DecidableEq, Repr

namespace Paper

/-- What a write is refused with when the room is used up. -/
def refusal : String := "disk full"

/-- Writes a text. When there is too little room, as much as fits is written. -/
def write (text : String) : EStateM String Paper Unit := fun paper =>
  match paper.room with
  | none => .ok () { paper with written := paper.written ++ text }
  | some room =>
    let size := Text.byteLength text.toList
    if size ≤ room then
      .ok () { paper with written := paper.written ++ text, room := some (room - size) }
    else
      let fitting := Text.takeBytes text.toList room
      .error refusal
        { written := paper.written ++ String.ofList fitting
          room := some 0
          torn := decide (Text.byteLength fitting < room) }

end Paper

/-- The emitter that prints tokens. -/
def printer (palette : Palette) : Emitter Paper where
  emit token := Paper.write (tokenLine palette token)

/-- Something to print. -/
inductive Item where
  | token (token : Token)
  | header (name : String)
  | metrics (metrics : Metrics) (elapsed : Duration)
  | flush
  deriving DecidableEq, Repr

/-- Prints an item. -/
def Item.print (palette : Palette) : Item → EStateM String Paper Unit
  | token printed => (printer palette).emit printed
  | header name => Paper.write (headerLine palette name)
  | metrics counters elapsed => Paper.write (metricsLine palette counters elapsed.text)
  | flush => pure ()

/-- Prints items in order, up to the first that fails. -/
def printAll (palette : Palette) : List Item → EStateM String Paper Unit
  | [] => pure ()
  | item :: rest => do
    item.print palette
    printAll palette rest

end TableLexer.Report
