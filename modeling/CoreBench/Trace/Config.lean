import CoreBench.Settings.Load
import CoreBench.Settings.Plain
import CoreBench.Trace.Report

/-!
The configuration of the trace counter: which log to count, how to report, and whether to show the
configuration first.

Stated here:
  * `ofSettings?_empty`: without settings, the configuration is the default one.
-/

namespace CoreBench.Trace

open CoreBench.Settings

/-- What the trace counter is told. -/
structure Config where
  input : String := "../build/trace_core_000003e0.log"
  format : Format := .text
  printConfig : Bool := false
  deriving DecidableEq, Repr

/-- The trace counter as a tool. -/
def tool : Tool where
  name := "trace-stats"
  variableStem := "TRACE_STATS"
  options :=
    [⟨"input", some 'i', .setting "input" .path⟩,
      ⟨"format", some 'f', .setting "format" (.choice (Format.named.map Prod.fst))⟩,
      ⟨"config", some 'c', .file⟩,
      ⟨"print-config", none, .switch "print_config"⟩]

namespace Config

/-- The configuration that loaded settings give. -/
def ofSettings? (v : Value) : Option Config := do
  let input ← v.setting "input" Value.toText? ({} : Config).input
  let format ← v.setting "format" (Value.toChoice? Format.named) ({} : Config).format
  let printConfig ← v.setting "print_config" Value.toBool? ({} : Config).printConfig
  some { input, format, printConfig }

/-- The configuration that a value of a JSON document gives. -/
def ofJson? (v : Json) : Option Config :=
  match v.record? ["input", "format", "print_config"] with
  | some [i, f, p] => do
    let input ← Json.field Json.string? ({} : Config).input i
    let format ← Json.field (Json.choice? Format.named) ({} : Config).format f
    let printConfig ← Json.field Json.bool? ({} : Config).printConfig p
    some { input, format, printConfig }
  | _ => none

/-- The configuration by the names of its settings. -/
def fields (c : Config) : Fields :=
  [("input", .text c.input), ("format", .text c.format.name), ("print_config", .bool c.printConfig)]

theorem ofSettings?_empty : ofSettings? (.table []) = some {} := rfl

end Config

end CoreBench.Trace
