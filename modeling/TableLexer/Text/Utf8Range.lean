/-
**Ranges of characters as ranges of bytes.**

The UTF-8 forms of the characters of a range are described by sequences of byte ranges: a text of
bytes is the form of a character of the range when its bytes lie in the ranges of one of the
sequences. `utf8Ranges` gives such sequences in ascending order. All characters of a sequence have forms
of one length, and its ranges vary freely: behind a byte that varies come continuation bytes that take
every value.
-/

namespace TableLexer.Text

/-- The bytes of the UTF-8 form of a code point. -/
def utf8Bytes (code : Nat) : List Nat :=
  let continuation (shift : Nat) : Nat := 0x80 + code / shift % 0x40
  if code < 0x80 then [code]
  else if code < 0x800 then [0xC0 + code / 0x40, continuation 1]
  else if code < 0x10000 then [0xE0 + code / 0x1000, continuation 0x40, continuation 1]
  else [0xF0 + code / 0x40000, continuation 0x1000, continuation 0x40, continuation 1]

/-- The parts of a range on both sides of a limit, which belongs to the lower part. -/
def splitAbove (limit : Nat) (range : Nat × Nat) : List (Nat × Nat) :=
  if range.1 ≤ limit ∧ limit < range.2 then [(range.1, limit), (limit + 1, range.2)] else [range]

/-- The parts of a range that lie below U+D800 and above U+DFFF. -/
def splitSurrogates (range : Nat × Nat) : List (Nat × Nat) :=
  if range.1 < 0xE000 ∧ 0xD7FF < range.2 then
    [(range.1, 0xD7FF), (0xE000, range.2)].filter fun (first, last) => decide (first ≤ last)
  else [range]

/-- Cuts a range at the limits of blocks, for each size of blocks in turn: what is left over of the
first and of the last block is cut off, and the whole blocks between them go on to the next size. A
range within a block is not cut. -/
def splitBlocks : List Nat → Nat × Nat → List (Nat × Nat)
  | [], range => [range]
  | size :: sizes, (first, last) =>
    if first / size = last / size then [(first, last)]
    else
      let whole := (first + (size - 1)) / size * size
      let rest := (last + 1) / size * size
      (if first < whole then [(first, whole - 1)] else []) ++
        (if whole < rest then splitBlocks sizes (whole, rest - 1) else []) ++
        (if rest ≤ last then [(rest, last)] else [])

/-- The sequences of byte ranges for a range of code points. The characters of one byte need no cut, for
they have no continuation bytes. -/
def utf8Ranges (range : Nat × Nat) : List (List (Nat × Nat)) :=
  let parts := (splitSurrogates range).flatMap (splitAbove 0x7F)
  let parts := (parts.flatMap (splitAbove 0x7FF)).flatMap (splitAbove 0xFFFF)
  let uniform := parts.flatMap fun part =>
    if part.2 < 0x80 then [part] else splitBlocks [0x40, 0x1000, 0x40000] part
  uniform.map fun (first, last) => (utf8Bytes first).zip (utf8Bytes last)

end TableLexer.Text
