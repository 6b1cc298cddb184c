/-
**Flags of a pattern** and the changes to them that stand inside a pattern, as in `(?i)` or
`(?s-m:…)`.

The dialect has three flags. Four others lie outside it: `x` (blanks and comments in a pattern), `U`
(repetitions are lazy), `u` (Unicode, here always on) and `R` (line ends of two characters). A pattern
that names one of them is refused, also where it is switched off, as in `(?-u:…)`.
-/

namespace TableLexer.Pattern

/-- How a pattern is matched. -/
structure Flags where
  /-- Case does not count. -/
  ignoreCase : Bool := false
  /-- `^` and `$` also match at the ends of lines. -/
  multiLine : Bool := false
  /-- `.` also matches a line feed. -/
  dotAll : Bool := false
  deriving DecidableEq, Repr

/-- The flags by the letters that a pattern writes. -/
inductive Flag where
  | ignoreCase
  | multiLine
  | dotAll
  deriving DecidableEq, Repr

/-- The flag of a letter. The letters `x`, `U`, `u` and `R` are among those that have none. -/
def Flag.ofChar? : Char → Option Flag
  | 'i' => some .ignoreCase
  | 'm' => some .multiLine
  | 's' => some .dotAll
  | _ => none

/-- The flags with one of them set to a value. -/
def Flags.set (flags : Flags) (flag : Flag) (value : Bool) : Flags :=
  match flag with
  | .ignoreCase => { flags with ignoreCase := value }
  | .multiLine => { flags with multiLine := value }
  | .dotAll => { flags with dotAll := value }

/-- A change of flags: those to switch on and those to switch off. -/
structure FlagChange where
  on : List Flag := []
  off : List Flag := []
  deriving DecidableEq, Repr

namespace FlagChange

/-- The change names no flag. -/
def isEmpty (change : FlagChange) : Bool := change.on.isEmpty && change.off.isEmpty

/-- The flags after the change. -/
def apply (change : FlagChange) (flags : Flags) : Flags :=
  change.off.foldl (fun flags flag => flags.set flag false)
    (change.on.foldl (fun flags flag => flags.set flag true) flags)

/-- Reads the letters up to `)` or `:`, which it leaves. A `-` switches to the flags that are
switched off: it stands once at most and never last, and no flag stands twice. -/
def read? (change : FlagChange) (minus : Bool) (dangling : Bool) :
    List Char → Option (FlagChange × List Char)
  | [] => none
  | c :: rest =>
    if c = ')' || c = ':' then
      if dangling then none else some (change, c :: rest)
    else if c = '-' then
      if minus then none else read? change true true rest
    else
      match Flag.ofChar? c with
      | none => none
      | some flag =>
        if change.on.contains flag || change.off.contains flag then none
        else if minus then read? { change with off := flag :: change.off } true false rest
        else read? { change with on := flag :: change.on } false false rest

end FlagChange

end TableLexer.Pattern
