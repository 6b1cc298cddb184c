/-
**The arguments of the command line.**

Arguments are read from left to right. The options that ask for information end the reading at once;
the first malformed argument ends it with an error. A later option replaces an earlier one.
-/

import TableLexer.Scan.Options
import TableLexer.Tokenize

namespace TableLexer.CommandLine

/-- What `--version` shows. -/
def versionText : String := "beni 0.1.0"

/-- The text that `--help` shows. -/
def helpText : String :=
  versionText ++ "

Tokenize source files and print one classified token per line.

Usage:
  beni [OPTIONS] [--] <file...>
  beni [OPTIONS] --lang <name> < input

Options:
  -l, --lang <name>          Language name or alias. Default: picked from each
                             file name.
  --lenient                  Emit Error tokens for uncovered input instead of
                             stopping at the first one.
  --max-depth <n>            Maximum nesting of delegated lexer runs.
                             Default: " ++ toString ({} : Options).maxDepth ++ "
  --trace                    Log every rule selection (RUST_LOG overrides).
  --stats                    Print token/step counts after each input.
  --list                     List known languages.
  --color                    Force ANSI color output.
  --no-color                 Disable ANSI color output.
  -h, --help                 Show this help message.
  -V, --version              Print version information.

Exit codes:
  0  Success.
  1  Tokenizing or I/O error.
  2  Invalid arguments.
"

/-- A run of the program, as the arguments ask for it. -/
structure Config where
  /-- The files to tokenize; standard input if there are none. -/
  inputs : List String := []
  language : Option String := none
  options : Options := {}
  stats : Bool := false
  /-- Tokens are coloured. Where no option decides, it is decided by whether standard output is a
  terminal; the default is for one that is none. -/
  color : Bool := false
  deriving DecidableEq, Repr

/-- What the arguments ask for. -/
inductive Request where
  | help
  | version
  | list
  | run (config : Config)
  deriving DecidableEq, Repr

/-- Why arguments are refused. -/
inductive ArgumentError where
  | missingValue (option : String)
  | invalidDepth (value : String)
  | unknownOption (argument : String)
  | unknownLanguage (name : String)
  /-- Standard input has no name to choose a language by. -/
  | languageNeeded
  deriving DecidableEq, Repr

/-- The message of the error. -/
def ArgumentError.message : ArgumentError → String
  | missingValue option => s!"error: {option} expects a value"
  | invalidDepth value =>
    s!"error: invalid --max-depth '{value}' (expected a non-negative integer)"
  | unknownOption argument => s!"error: unknown option '{argument}'"
  | unknownLanguage name => s!"error: unknown language '{name}' (see --list)"
  | languageNeeded => "error: reading stdin requires --lang\n\n" ++ helpText

/-- Depths are below this bound. -/
def depthBound : Nat := 0x10000000000000000

/-- The number that a text of decimal digits stands for. A `+` may stand before the digits. -/
def depth? (value : String) : Option Nat :=
  let digits :=
    match value.toList with
    | '+' :: rest => rest
    | digits => digits
  let number := digits.foldl (fun number c => number * 10 + (c.toNat - '0'.toNat)) 0
  if digits.isEmpty || !digits.all Char.isDigit || depthBound ≤ number then none else some number

/-- The rest of a text behind a beginning, if the text begins so. -/
def behind? : List Char → List Char → Option (List Char)
  | [], text => some text
  | _ :: _, [] => none
  | p :: expected, c :: text => if p = c then behind? expected text else none

/-- The text without any number of repetitions of a beginning, `bound` of them at most. -/
def trimUpTo (expected : List Char) : Nat → List Char → List Char
  | 0, text => text
  | bound + 1, text =>
    match behind? expected text with
    | none => text
    | some rest => trimUpTo expected bound rest

/-- The value of an argument that begins with `option`, which may be written several times. -/
def valueOf? (option argument : String) : Option String :=
  (behind? option.toList argument.toList).map fun rest =>
    String.ofList (trimUpTo option.toList rest.length rest)

namespace Config

/-- The configuration with another limit for the depth. -/
def setDepth (config : Config) (value : String) : Except ArgumentError Config :=
  match depth? value with
  | some maxDepth => .ok { config with options := { config.options with maxDepth } }
  | none => .error (.invalidDepth value)

/-- The configuration with another language. -/
def setLanguage (config : Config) (name : String) : Config := { config with language := some name }

/-- The configuration with more inputs. -/
def addInputs (config : Config) (paths : List String) : Config :=
  { config with inputs := config.inputs ++ paths }

/-- The configuration can be carried out: its language is known, and standard input has one. -/
def check (config : Config) : Except ArgumentError Request :=
  match config.language with
  | some name =>
    if (Registry.builtins.find? name).isSome then .ok (.run config)
    else .error (.unknownLanguage name)
  | none => if config.inputs.isEmpty then .error .languageNeeded else .ok (.run config)

/-- An argument that is no option of its own: a valued option in one piece, an unknown option, or an
input. -/
def readOther (config : Config) (argument : String) : Except ArgumentError Config :=
  match valueOf? "--lang=" argument with
  | some name => .ok (config.setLanguage name)
  | none =>
    match valueOf? "--max-depth=" argument with
    | some value => config.setDepth value
    | none =>
      if argument.toList.head? = some '-' then .error (.unknownOption argument)
      else .ok (config.addInputs [argument])

end Config

/-- Reads arguments on top of a configuration. -/
def readArguments (config : Config) : List String → Except ArgumentError Request
  | [] => config.check
  | argument :: rest =>
    if argument = "-h" ∨ argument = "--help" then .ok .help
    else if argument = "-V" ∨ argument = "--version" then .ok .version
    else if argument = "--list" then .ok .list
    else if argument = "--color" then readArguments { config with color := true } rest
    else if argument = "--no-color" then readArguments { config with color := false } rest
    else if argument = "--lenient" then
      readArguments { config with options := { config.options with stall := .lenient } } rest
    else if argument = "--trace" then
      readArguments { config with options := { config.options with trace := true } } rest
    else if argument = "--stats" then readArguments { config with stats := true } rest
    else if argument = "--lang" ∨ argument = "-l" then
      match rest with
      | [] => .error (.missingValue "--lang")
      | name :: rest => readArguments (config.setLanguage name) rest
    else if argument = "--max-depth" then
      match rest with
      | [] => .error (.missingValue "--max-depth")
      | value :: rest => do readArguments (← config.setDepth value) rest
    else if argument = "--" then (config.addInputs rest).check
    else do readArguments (← config.readOther argument) rest

/-- What a command line asks for. -/
def Request.ofArguments (arguments : List String) : Except ArgumentError Request :=
  readArguments {} arguments

end TableLexer.CommandLine
