import CoreBench.Json.Record
import CoreBench.Settings.Load
import CoreBench.Settings.Plain
import CoreBench.Stimuli.Header.Writer

/-!
The configuration of the stimuli generator: where to write, what to draw, and what to do besides.

Stated here:
  * `ofSettings?_empty`: without settings, the configuration is the default one.
-/

namespace CoreBench.Stimuli

open CoreBench.Settings CoreBench.Text

/-- What the stimuli generator is told. -/
structure Config where
  output : String := "MatrixMul32_stimuli.h"
  size : Nat := defaultSize
  range : Option Nat := none
  seed : Option Nat := none
  sect : String := Header.defaultSection
  verify : Bool := false
  printConfig : Bool := false
  deriving DecidableEq, Repr

/-- The stimuli generator as a tool. -/
def tool : Tool where
  name := "stimuli-gen"
  variableStem := "STIMULI"
  options :=
    [⟨"output", some 'o', .setting "output" .path⟩,
      ⟨"section", none, .setting "section" .text⟩,
      ⟨"verify", none, .switch "verify"⟩,
      ⟨"size", some 's', .setting "size" (.natural max64)⟩,
      ⟨"range", some 'r', .setting "range" (.natural max32)⟩,
      ⟨"seed", none, .setting "seed" (.natural maxInt64)⟩,
      ⟨"config", some 'c', .file⟩,
      ⟨"print-config", none, .switch "print_config"⟩]

namespace Config

/-- The parameters of the stimuli. -/
def params (c : Config) : Params :=
  .ofSizeRange c.size c.range

/-- The parameters of the stimuli, if they are valid. -/
def validParams (c : Config) : Except StimuliError Params :=
  match c.params.validate with
  | .error e => .error e
  | .ok () => .ok c.params

/-- The configuration that loaded settings give. -/
def ofSettings? (v : Value) : Option Config := do
  let output ← v.setting "output" Value.toText? ({} : Config).output
  let size ← v.setting "size" Value.toNat64? ({} : Config).size
  let range ← v.setting "range" (fun w => w.toNat32?.map some) ({} : Config).range
  let seed ← v.setting "seed" (fun w => w.toNat64?.map some) ({} : Config).seed
  let sect ← v.setting "section" Value.toText? ({} : Config).sect
  let verify ← v.setting "verify" Value.toBool? ({} : Config).verify
  let printConfig ← v.setting "print_config" Value.toBool? ({} : Config).printConfig
  some { output, size, range, seed, sect, verify, printConfig }

/-- The configuration that a value of a JSON document gives. -/
def ofJson? (v : Json) : Option Config :=
  match v.record? ["output", "size", "range", "seed", "section", "verify", "print_config"] with
  | some [output, size, range, seed, sect, verify, printConfig] => do
    let output ← Json.field Json.string? ({} : Config).output output
    let size ← Json.field (Json.nat? max64) ({} : Config).size size
    let range ← Json.field (Json.optional (Json.nat? max32)) ({} : Config).range range
    let seed ← Json.field (Json.optional (Json.nat? max64)) ({} : Config).seed seed
    let sect ← Json.field Json.string? ({} : Config).sect sect
    let verify ← Json.field Json.bool? ({} : Config).verify verify
    let printConfig ← Json.field Json.bool? ({} : Config).printConfig printConfig
    some { output, size, range, seed, sect, verify, printConfig }
  | _ => none

/-- A field with a number, if there is one. -/
def numberField (name : String) (n : Option Nat) : Fields :=
  (n.map fun n => (name, Plain.ofNat n)).toList

/-- The configuration by the names of its settings; numbers that are not given are left out. -/
def fields (c : Config) : Fields :=
  [("output", .text c.output), ("size", .ofNat c.size)] ++ numberField "range" c.range
    ++ numberField "seed" c.seed
    ++ [("section", .text c.sect), ("verify", .bool c.verify), ("print_config", .bool c.printConfig)]

theorem ofSettings?_empty : ofSettings? (.table []) = some {} := rfl

end Config

end CoreBench.Stimuli
