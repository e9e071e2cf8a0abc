import CoreBench.Json.Reader
import CoreBench.Json.Record
import CoreBench.Json.Writer
import CoreBench.Text.Digits
import CoreBench.Trace.Counts

/-!
Reports of counts, as lines of text or as a JSON document, and counts read back from a document.
-/

namespace CoreBench.Trace

open CoreBench.Text

/-- The forms of a report. -/
inductive Format where
  | text
  | json
  deriving DecidableEq, Repr

namespace Format

/-- The name of a format. -/
def name : Format → String
  | .text => "text"
  | .json => "json"

/-- The formats by name. -/
def named : List (String × Format) :=
  [(name .text, .text), (name .json, .json)]

end Format

namespace Counts

/-- The line of a text report for one width. -/
def line (c : Counts) (w : Width) : List Char :=
  w.mnemonic.toList ++ ':' :: ' ' :: digits (c.get w) ++ ['\n']

/-- The report as text: a line for each width. -/
def text (c : Counts) : List Char :=
  Width.reportOrder.flatMap c.line

/-- The counts as an object with a member for each width. -/
def json (c : Counts) : Json :=
  .ofMembers (Width.reportOrder.map fun w => (w.mnemonic, .ofNat (c.get w)))

/-- The counts that a value holds, each of them a number of 64 bits. -/
def ofJson? (v : Json) : Option Counts :=
  match v.record? (Width.reportOrder.map Width.mnemonic) with
  | some [some w, some h, some b] => do
    let sw ← w.nat? max64
    let sh ← h.nat? max64
    let sb ← b.nat? max64
    some ⟨sw, sh, sb⟩
  | _ => none

/-- The counts that a document holds. -/
def read? (s : List Char) : Option Counts :=
  (Json.read s).bind ofJson?

/-- The report in a format. -/
def report (c : Counts) : Format → List Char
  | .text => c.text
  | .json => c.json.write ++ ['\n']

end Counts

end CoreBench.Trace
