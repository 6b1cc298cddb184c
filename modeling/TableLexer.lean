import TableLexer.Main
import TableLexer.Pattern.Explained
import TableLexer.Proofs.Java.Runs
import TableLexer.Proofs.Language.Served
import TableLexer.Proofs.Pattern.Goals
import TableLexer.Proofs.Pattern.Meaning
import TableLexer.Proofs.Scan.Registered
import TableLexer.Proofs.Pattern.Complete
import TableLexer.Proofs.Pattern.Anchored
import TableLexer.Proofs.Scan.Cursor
import TableLexer.Proofs.Scan.Delegated
import TableLexer.Proofs.Scan.Offsets
import TableLexer.Proofs.Scan.Cut
import TableLexer.Proofs.Scan.Policies
import TableLexer.Proofs.Scan.Limits
import TableLexer.Proofs.Scan.History
import TableLexer.Proofs.Scan.Strides
import TableLexer.Proofs.Scan.Restarted
import TableLexer.Proofs.Scan.Work
import TableLexer.Proofs.Scan.Untraced
import TableLexer.Proofs.Scan.Extended
import TableLexer.Proofs.Scan.Reordered
import TableLexer.Proofs.Java.Context
import TableLexer.Proofs.Table.Faults
import TableLexer.Proofs.Table.Globs
import TableLexer.Proofs.Report.ReadBack
import TableLexer.Proofs.Pattern.Spelled
import TableLexer.Proofs.Java.Signature
import TableLexer.Proofs.Scan.Paths
import TableLexer.Proofs.Java.Reserved
import TableLexer.Proofs.Java.Methods
import TableLexer.Proofs.Scan.BrokenOff
import TableLexer.Proofs.Java.Words
import TableLexer.Proofs.Java.Literals
import TableLexer.Proofs.Java.Coverage
import TableLexer.Proofs.Java.Heads
import TableLexer.Proofs.Language.Constructors
import TableLexer.Proofs.CommandLine.Spellings
import TableLexer.Proofs.Report.Uncolored
import TableLexer.Proofs.CommandLine.OneByOne
import TableLexer.Proofs.Java.Vocabularies
