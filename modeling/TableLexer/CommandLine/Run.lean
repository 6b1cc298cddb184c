/-
**What the command line does.**

A run tokenizes its inputs one after another onto one paper and stops at the first that fails. The
host supplies what lies outside: the bytes of files and of standard input, and the time that a
computation takes. The messages of a run are its log, of which the level shows the part that was
asked for, and then the error that ended it.

The environment of the process is left out: here no variable is set that the log heeds. Were `RUST_LOG`
set, it would take the place of the level that the arguments ask for, as the help text says, and
`RUST_LOG_STYLE` could colour the lines.
-/

import TableLexer.CommandLine.Arguments
import TableLexer.CommandLine.ControlSequence
import TableLexer.CommandLine.Directory
import TableLexer.Report.Printer

namespace TableLexer.CommandLine

/-- What a run needs from outside. -/
structure Host (m : Type → Type) where
  openFile : String → m (Except OpenError Input)
  standardInput : m Input
  /-- Computes a value and tells how long that took. -/
  timed : {α : Type} → (Unit → α) → m (α × String)

/-- The end of a run: what it left behind and, if it failed, the message. -/
structure Ending where
  world : World Report.Paper
  failure : Option String := none

/-- What the program shows and with which code it ends. -/
structure Shown where
  exitCode : Nat
  output : String := ""
  messages : String := ""
  deriving DecidableEq, Repr

namespace Config

/-- How tokens are coloured. -/
def palette (config : Config) : Report.Palette := ⟨config.color⟩

/-- The engine of the run. -/
def engine (config : Config) : Engine Report.Paper :=
  ⟨.builtins, config.options, Report.printer config.palette⟩

/-- The language of a file: the one that was asked for, or the one of the file's name. -/
def languageOf (config : Config) (path : String) : Except String String :=
  match config.language with
  | some language => .ok language
  | none =>
    match Registry.builtins.findByFilename? path with
    | some language => .ok language.name
    | none => .error (path ++ ": no lexer matches this file name (use --lang)")

/-- Writes a line onto the paper. -/
def writeLine (line : String) (world : World Report.Paper) : Ending :=
  match Report.Paper.write line world.sink with
  | .ok _ sink => { world := { world with sink } }
  | .error message sink => { world := { world with sink }, failure := some message }

variable {m : Type → Type} [Monad m]

/-- Tokenizes an input and prints its counters if they are asked for. -/
def tokenizeInput (config : Config) (host : Host m) (language : String) (input : Input)
    (world : World Report.Paper) : m Ending := do
  let (outcome, elapsed) ←
    host.timed fun _ => config.engine.tokenizeInput language input world
  match outcome.result with
  | .error error => return { world := outcome.world, failure := some error.message }
  | .ok metrics =>
    if config.stats then
      return writeLine (Report.metricsLine config.palette metrics elapsed) outcome.world
    else return { world := outcome.world }

/-- Tokenizes a file under a header with its path. -/
def tokenizeFile (config : Config) (host : Host m) (path : String) (world : World Report.Paper) :
    m Ending := do
  match config.languageOf path with
  | .error message => return { world, failure := some message }
  | .ok language =>
    let headed := writeLine (Report.headerLine config.palette path) world
    if headed.failure.isSome then return headed
    else
      match ← host.openFile path with
      | .error error =>
        return { world := headed.world, failure := some (path ++ ": " ++ error.message) }
      | .ok input => config.tokenizeInput host language input headed.world

/-- Tokenizes files in order, up to the first that fails. -/
def tokenizeFiles (config : Config) (host : Host m) :
    List String → World Report.Paper → m Ending
  | [], world => return { world }
  | path :: rest, world => do
    let ending ← config.tokenizeFile host path world
    if ending.failure.isSome then return ending
    else config.tokenizeFiles host rest ending.world

/-- Tokenizes the inputs of the run. -/
def tokenizeAll (config : Config) (host : Host m) : m Ending :=
  let world : World Report.Paper := { sink := {} }
  match config.inputs with
  | [] => do
    let input ← host.standardInput
    config.tokenizeInput host (config.language.getD "") input world
  | paths => config.tokenizeFiles host paths world

/-- The log shows records of the level, when the variable `RUST_LOG` is unset: all with tracing, else
those from `info` upwards, which are warnings and errors, since nothing is logged as `info`. -/
def showsLevel (config : Config) (level : Level) : Bool :=
  config.options.trace || level = .warn || level = .error

end Config

/-- A message with its level. Further lines of it are indented. The time and the module of the record,
which also stand between the brackets, are left out. -/
def messageLine (level : Level) (message : String) : String :=
  let indented := message.toList.flatMap fun c => if c = '\n' then "\n    ".toList else [c]
  withoutControls ("[" ++ level.name ++ "] " ++ String.ofList indented ++ "\n")

/-- What a run shows in the end. -/
def Ending.show (config : Config) (ending : Ending) : Shown :=
  let records := ending.world.log.toList.filter (config.showsLevel ·.level)
  let logged := records.map fun record => messageLine record.level record.message
  { exitCode := if ending.failure.isSome then 1 else 0
    output := ending.world.sink.written
    messages := String.join logged ++ ((ending.failure.map (messageLine .error)).getD "") }

/-- A text with blanks behind it up to a width. -/
def padded (width : Nat) (text : String) : String :=
  text ++ String.ofList (List.replicate (width - text.toList.length) ' ')

/-- The line that lists a language. -/
def listLine (descriptor : Descriptor) : String :=
  padded 12 descriptor.name ++ " " ++ descriptor.description ++ "  [" ++
    ", ".intercalate descriptor.filenames ++ "]\n"

/-- Carries out what the arguments ask for. -/
def perform {m : Type → Type} [Monad m] (host : Host m) (arguments : List String) : m Shown :=
  match Request.ofArguments arguments with
  | .error error => return { exitCode := 2, messages := error.message ++ "\n" }
  | .ok .help => return { exitCode := 0, output := helpText ++ "\n" }
  | .ok .version => return { exitCode := 0, output := versionText ++ "\n" }
  | .ok .list =>
    return { exitCode := 0
             output := String.join (Registry.builtins.languages.map (listLine ·.descriptor)) }
  | .ok (.run config) => do return (← config.tokenizeAll host).show config

end TableLexer.CommandLine
