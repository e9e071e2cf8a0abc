import CoreBench.Main
import CoreBench.Proofs.Stimuli.Header.RoundTrip
import CoreBench.Proofs.Stimuli.Generation
import CoreBench.Proofs.Stimuli.Overflow
import CoreBench.Proofs.Stimuli.Run
import CoreBench.Proofs.Settings.Arguments
import CoreBench.Proofs.Settings.Fieldwise
import CoreBench.Proofs.Settings.Files
import CoreBench.Proofs.Settings.Overlay
import CoreBench.Proofs.Settings.Precedence
import CoreBench.Proofs.Toml.Document
import CoreBench.Proofs.Settings.Printed
import CoreBench.Proofs.Trace.Counts
import CoreBench.Proofs.Stimuli.Header.Truncation
import CoreBench.Proofs.Files.Growth
import CoreBench.Proofs.Stimuli.Sequence
import CoreBench.Proofs.Settings.Alone
import CoreBench.Proofs.Settings.Numbers
import CoreBench.Proofs.Settings.Verbatim
import CoreBench.Proofs.Text.Parts
import CoreBench.Proofs.Stimuli.Header.Grammar
import CoreBench.Proofs.Stimuli.Header.Safety
import CoreBench.Proofs.Program.Ending
import CoreBench.Proofs.Trace.Lines
import CoreBench.Proofs.Trace.Run
import CoreBench.Proofs.Settings.Switch
import CoreBench.Proofs.Program.Printing
import CoreBench.Proofs.Stimuli.Exact
import CoreBench.Proofs.Stimuli.Header.Verify
import CoreBench.Proofs.Settings.Listed
import CoreBench.Proofs.Stimuli.Header.Surroundings
import CoreBench.Proofs.Stimuli.Header.Endings
import CoreBench.Proofs.Files.Writer
import CoreBench.Proofs.Stimuli.Header.Writing
import CoreBench.Proofs.Stimuli.Prefix
import CoreBench.Proofs.Stimuli.Refused
import CoreBench.Proofs.Stimuli.Derived
import CoreBench.Proofs.Json.RoundTrip
import CoreBench.Proofs.Json.Record
import CoreBench.Proofs.Trace.Report
import CoreBench.Proofs.Log.Targets
import CoreBench.Proofs.Log.Spec
import CoreBench.Proofs.Stimuli.Header.Flat
import CoreBench.Proofs.Stimuli.Monoid
import CoreBench.Proofs.Files.Content
import CoreBench.Proofs.Files.Uses
