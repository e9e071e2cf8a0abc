import CoreBench.Json.Value
import CoreBench.Settings.Value

/-!
Plain settings that can be shown: switches, integers and texts by name, in a fixed order. They are what a
configuration is written as, whatever the format.
-/

namespace CoreBench.Settings

/-- A plain value. -/
inductive Plain where
  | bool (b : Bool)
  | int (i : Int)
  | text (s : String)
  deriving DecidableEq, Repr

namespace Plain

/-- A natural number as a plain value. -/
def ofNat (n : Nat) : Plain :=
  .int n

/-- The value without a type. -/
def value : Plain → Value
  | .bool b => .bool b
  | .int i => .int i
  | .text s => .text s

/-- The value in a JSON document. -/
def json : Plain → Json
  | .bool b => .bool b
  | .int i => .int i
  | .text s => .ofString s

end Plain

/-- Named plain values. -/
abbrev Fields := List (String × Plain)

/-- The fields as an object of a JSON document. -/
def Fields.json (fs : Fields) : Json :=
  .ofMembers (fs.map fun f => (f.1, f.2.json))

/-- The fields as entries of a table. -/
def Fields.entries (fs : Fields) : Entries :=
  fs.map fun f => (f.1, f.2.value)

end CoreBench.Settings
