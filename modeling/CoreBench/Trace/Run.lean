import CoreBench.Session
import CoreBench.Trace.Config

/-!
Counting a log and reporting the counts.
-/

namespace CoreBench.Trace

open CoreBench.Files CoreBench.Text

/-- Why a log cannot be counted. -/
inductive TraceError where
  | opening (e : FileError)
  | reading (path : String) (fault : Fault)
  deriving DecidableEq, Repr

/-- The wording of an error. -/
def TraceError.message : TraceError → String
  | .opening e => "Error opening trace log: " ++ e.message
  | .reading path fault => "Error reading trace log " ++ quoted path ++ ": " ++ fault.message

/-- An error and what caused it, the cause last. -/
def TraceError.causes (e : TraceError) : List String :=
  match e with
  | .opening f => [e.message, f.message, f.fault.message]
  | .reading _ fault => [e.message, fault.message]

/-- Notes that a log is about to be counted. -/
def noteStart (path : String) : Step TraceError Unit :=
  Step.note ⟨.debug, "trace_stats::counter", "counting stores in " ++ quoted path, []⟩

/-- Notes the counts of a log. -/
def noteCounts (path : String) (c : Counts) : Step TraceError Unit :=
  Step.note ⟨.info, "trace_stats::counter",
    "counted " ++ toString c.total ++ " store lines in " ++ quoted path,
    Width.reportOrder.map fun w => (w.mnemonic, toString (c.get w))⟩

/-- The stream of a log. -/
def openLog (path : String) : Step TraceError Stream :=
  Step.mapError .opening (Step.openRead path)

/-- The counts of the log that a path leads to. -/
def countFile (path : String) : Step TraceError Counts := do
  noteStart path
  let stream ← openLog path
  let counts ← Step.ofExcept ((Counts.ofStream stream).mapError (.reading path))
  noteCounts path counts
  pure counts

/-- The report on the log of a configuration. -/
def run (c : Config) : Step TraceError (List Char) := do
  let counts ← countFile c.input
  pure (counts.report c.format)

end CoreBench.Trace
