/-
**The program.** It hands the arguments to the command line with the file system, standard input and
the clock as host, and shows what comes of them.
-/

import TableLexer.CommandLine.Run

namespace TableLexer

/-- The error of a file that cannot be read: some keep it from being opened, others from being read. -/
def readError : IO.Error → Except CommandLine.OpenError Input
  | .noFileOrDirectory .. => .error .notFound
  | .inappropriateType _ 21 _ =>
    .ok { bytes := .empty, failure := some CommandLine.isDirectoryMessage }
  | .inappropriateType .. => .error .notADirectory
  | .invalidArgument _ _ "name too long" => .error .nameTooLong
  | error => .error (.other (toString error))

/-- The file system, standard input and the clock. -/
def host : CommandLine.Host IO where
  openFile path := do
    try return .ok { bytes := ← IO.FS.readBinFile path }
    catch error => return readError error
  standardInput := do
    try return { bytes := ← (← IO.getStdin).readBinToEnd }
    catch error => return { bytes := .empty, failure := some (toString error) }
  timed compute := do
    let started ← IO.monoNanosNow
    let value ← IO.lazyPure compute
    let ended ← IO.monoNanosNow
    return (value, (Report.Duration.of 0 (ended - started)).text)

end TableLexer

/-- Runs the program and ends with its exit code. -/
def main (arguments : List String) : IO UInt32 := do
  let shown ← TableLexer.CommandLine.perform TableLexer.host arguments
  IO.print shown.output
  IO.eprint shown.messages
  return shown.exitCode.toUInt32
