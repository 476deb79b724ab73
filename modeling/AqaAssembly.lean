import AqaAssembly.Config.Written
import AqaAssembly.Execution
import AqaAssembly.Grammar.Standard
import AqaAssembly.Grammar.StandardText
import AqaAssembly.Grammar.Written
import AqaAssembly.Proofs.Machine.Cells
import AqaAssembly.Proofs.Program.Labels
import AqaAssembly.Proofs.Machine.Arithmetic
import AqaAssembly.Proofs.Machine.Checks
import AqaAssembly.Proofs.Machine.InstructionTable
import AqaAssembly.Proofs.Program.Language
import AqaAssembly.Proofs.Source.Cutting
import AqaAssembly.Proofs.Program.Likeness
import AqaAssembly.Proofs.Source.Words
import AqaAssembly.Proofs.Program.Provenance
import AqaAssembly.Proofs.Machine.Likeness
import AqaAssembly.Proofs.Program.Rendering
import AqaAssembly.Proofs.Program.RoundTrip
import AqaAssembly.Proofs.Source.Places
import AqaAssembly.Proofs.Source.Tokenisation
import AqaAssembly.Proofs.Source.Layout
import AqaAssembly.Proofs.Program.Layout
import AqaAssembly.Proofs.Program.Recovery
import AqaAssembly.Proofs.Machine.Steps
import AqaAssembly.Proofs.Program.Execution
import AqaAssembly.Proofs.Program.Cursor
import AqaAssembly.Proofs.Program.Regions
import AqaAssembly.Proofs.Source.Concatenation
import AqaAssembly.Proofs.Program.Concatenation
import AqaAssembly.Proofs.Machine.Calls
import AqaAssembly.Proofs.Machine.Traces
import AqaAssembly.Proofs.Machine.History
import AqaAssembly.Proofs.Machine.Observation
import AqaAssembly.Proofs.Machine.Extension
import AqaAssembly.Proofs.Machine.Reachability
import AqaAssembly.Proofs.Source.Lines
import AqaAssembly.Proofs.Program.Diagnostics
import AqaAssembly.Proofs.Json.Reading
import AqaAssembly.Proofs.Grammar.Writing
import AqaAssembly.Proofs.Grammar.Standard
import AqaAssembly.Proofs.Machine.Limits
import AqaAssembly.Proofs.Program.Resolution
import AqaAssembly.Proofs.Machine.Shifts
import AqaAssembly.Proofs.Machine.Frame
import AqaAssembly.Proofs.Machine.Comparisons
import AqaAssembly.Proofs.Machine.Forward
import AqaAssembly.Proofs.Machine.Resetting
import AqaAssembly.Proofs.Text.Bytes
import AqaAssembly.Proofs.Grammar.Rules
import AqaAssembly.Proofs.Grammar.Entries
import AqaAssembly.Proofs.Program.Instructions
import AqaAssembly.Proofs.Machine.Logging
import AqaAssembly.Proofs.Program.Reports
import AqaAssembly.Proofs.Source.Numerals
import AqaAssembly.Proofs.Machine.Accesses
