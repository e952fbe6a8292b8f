import SessionShell.Main
import SessionShell.Run.Operation
import SessionShell.Proofs.Lookup
import SessionShell.Proofs.Registry
import SessionShell.Proofs.Run.Invariant
import SessionShell.Proofs.Run.Leaks
import SessionShell.Proofs.Run.Bystander
import SessionShell.Proofs.Run.Stack
import SessionShell.Proofs.Run.Frame
import SessionShell.Proofs.Links
import SessionShell.Proofs.Lineage
import SessionShell.Proofs.Run.Quiet
import SessionShell.Proofs.Run.History
import SessionShell.Proofs.Evaluator
import SessionShell.Proofs.Run.Rounds
import SessionShell.Proofs.Mirror
import SessionShell.Proofs.Run.Simulation
import SessionShell.Proofs.CommandLine.Printer
import SessionShell.Proofs.Run.Removals
import SessionShell.Proofs.Run.Course
import SessionShell.Proofs.Run.Meanwhile
import SessionShell.Proofs.Run.Focus
import SessionShell.Proofs.Run.Orphans
import SessionShell.Proofs.Run.Numbering
import SessionShell.Proofs.Run.Passage
import SessionShell.Proofs.Run.Faults
import SessionShell.Proofs.Run.Adoption
import SessionShell.Proofs.Run.Turnover
import SessionShell.Proofs.Run.Chronicle
import SessionShell.Proofs.Run.Listing
import SessionShell.Proofs.Run.Draws
import SessionShell.Proofs.Run.Spared
import SessionShell.Proofs.Run.Strangers
import SessionShell.Proofs.Files
import SessionShell.Proofs.Run.Manifests
import SessionShell.Proofs.CommandLine.Quotation
import SessionShell.Proofs.CommandLine.Provenance
import SessionShell.Proofs.Text.Utf8
import SessionShell.Proofs.Text.Lines
import SessionShell.Proofs.SingleLine
import SessionShell.Proofs.Run.Readable
import SessionShell.Proofs.Run.Tidy
import SessionShell.Proofs.Run.Answers
import SessionShell.Proofs.Program
import SessionShell.Proofs.CommandLine.Trimming
import SessionShell.Proofs.Resolution
import SessionShell.Proofs.Run.Candidates
import SessionShell.Proofs.Run.Clearance
import SessionShell.Proofs.Text.Span
import SessionShell.Proofs.Decimal.Digits
import SessionShell.Proofs.Identifiers
import SessionShell.Proofs.CommandLine.FlagWords
import SessionShell.Proofs.Existence
import SessionShell.Proofs.Loading
import SessionShell.Proofs.Run.Reports
import SessionShell.Proofs.Template
import SessionShell.Proofs.Decimal.Numeral
import SessionShell.Proofs.Decimal.Rounding
import SessionShell.Proofs.CommandLine.FlagValue
import SessionShell.Proofs.Options
import SessionShell.Proofs.Json
import SessionShell.Proofs.Configuration
