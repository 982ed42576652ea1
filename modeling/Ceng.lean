import Ceng.Command.Item
import Ceng.Fault.Message
import Ceng.Grammar.Reading
import Ceng.Grammar.Reencoding
import Ceng.Main
import Ceng.Proofs.Command.Diagnosis
import Ceng.Proofs.Command.Ending
import Ceng.Proofs.Command.Item
import Ceng.Proofs.Command.Outcome
import Ceng.Proofs.Command.Printing
import Ceng.Proofs.Command.Report
import Ceng.Proofs.Command.Settings
import Ceng.Proofs.Command.Verbosity
import Ceng.Proofs.Fault.Message
import Ceng.Proofs.Fault.Reading
import Ceng.Proofs.Files.DumpFile
import Ceng.Proofs.Files.Path
import Ceng.Proofs.Scan.Acceptance
import Ceng.Proofs.Scan.Appending
import Ceng.Proofs.Scan.Blanking
import Ceng.Proofs.Scan.Concatenation
import Ceng.Proofs.Scan.Dump
import Ceng.Proofs.Scan.Gaps
import Ceng.Proofs.Scan.Layout
import Ceng.Proofs.Scan.Lines
import Ceng.Proofs.Scan.Reencoding
import Ceng.Proofs.Scan.Resuming
import Ceng.Proofs.Scan.Strings
import Ceng.Proofs.Text.Utf8
import Ceng.Proofs.Token.DumpReader
import Ceng.Proofs.Token.DumpStream
import Ceng.Proofs.Token.Line
import Ceng.Proofs.Token.Spelling
import Ceng.Proofs.Workspace.Journal
import Ceng.Scan.Blanking
import Ceng.Scanner
import Ceng.Token.DumpReader
import Ceng.Token.Spelling
import Ceng.Workspace.Journal
