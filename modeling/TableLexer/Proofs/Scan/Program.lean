/-
**Programs of operations.**

Whoever holds a scan may step it or drive it to its end, as often as they like, and may go on after an
operation that failed: what it did before it failed stays done.
-/

import TableLexer.Proofs.Scan.Parts

namespace TableLexer

open Step

variable {σ : Type}

/-- What can be done with a scan. -/
inductive Operation where
  /-- One step. -/
  | step
  /-- Steps until the text is consumed or a step fails. -/
  | drive
  deriving DecidableEq, Repr

/-- Does the operation on a scan of the lexer. -/
def Operation.act (engine : Engine σ) (lexer : Lexer) : Operation → StepM σ Unit
  | step => lexer.step engine
  | drive => lexer.drive engine

/-- Does operations in order, each from where the one before it ended, whether that succeeded or failed:
the errors of those that failed, and where the last one ended. -/
def Lexer.operate (engine : Engine σ) (lexer : Lexer) :
    List Operation → Run σ → List ScanError × Run σ
  | [], run => ([], run)
  | operation :: rest, run =>
    let result := operation.act engine lexer run
    let (errors, last) := operate engine lexer rest (endOf result)
    ((ending result).1.toList ++ errors, last)

/-- The error marks a misuse of a scan and not a property of its text. -/
def ScanError.isMisuse : ScanError → Bool
  | .insideCharacter _ | .nothingToSkip _ => true
  | _ => false

/-- The error is a stall. -/
def ScanError.isStall : ScanError → Bool
  | .stall .. => true
  | _ => false

end TableLexer
