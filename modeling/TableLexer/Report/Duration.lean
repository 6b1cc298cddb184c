/-
**Spans of time as text**: in the largest of the units s, ms, µs and ns that gives a whole part, with as
many decimals as the value has and no rounding.
-/

namespace TableLexer.Report

/-- A span of time. -/
structure Duration where
  seconds : Nat := 0
  nanoseconds : Nat := 0
  deriving DecidableEq, Repr

/-- The number of nanoseconds of a second. -/
def nanosecondsPerSecond : Nat := 1000000000

/-- The span of so many seconds and nanoseconds, of which there may be more than a second's worth. -/
def Duration.of (seconds nanoseconds : Nat) : Duration :=
  ⟨seconds + nanoseconds / nanosecondsPerSecond, nanoseconds % nanosecondsPerSecond⟩

/-- A part of a unit, given as a number of `digits` decimals: a point and the decimals up to the last
that is not 0, or nothing. -/
def decimals (digits part : Nat) : String :=
  let written := Nat.toDigits 10 part
  let all := List.replicate (digits - written.length) '0' ++ written
  let shown := (all.reverse.dropWhile (· == '0')).reverse
  if shown.isEmpty then "" else String.ofList ('.' :: shown)

namespace Duration

/-- A whole number of units and the parts of a unit beyond it, with the name of the unit. -/
def inUnit (whole digits part : Nat) (unit : String) : String :=
  toString whole ++ decimals digits part ++ unit

/-- The span as text. -/
def text (duration : Duration) : String :=
  let nanoseconds := duration.nanoseconds
  if 0 < duration.seconds then inUnit duration.seconds 9 nanoseconds "s"
  else if 1000000 ≤ nanoseconds then inUnit (nanoseconds / 1000000) 6 (nanoseconds % 1000000) "ms"
  else if 1000 ≤ nanoseconds then inUnit (nanoseconds / 1000) 3 (nanoseconds % 1000) "µs"
  else inUnit nanoseconds 0 0 "ns"

end Duration

end TableLexer.Report
