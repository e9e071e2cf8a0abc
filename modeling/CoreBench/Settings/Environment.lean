import CoreBench.Settings.Conversion
import CoreBench.Number.Numeral
import CoreBench.Text.Cut

/-!
Settings in environment variables. A variable belongs to a tool if its name, in lower case, starts with the
tool's prefix and an underscore; the rest of the name is that of the setting, two underscores standing for
a step into a table. The value is taken for a switch, an integer or a number if it reads as one.
-/

namespace CoreBench.Settings

open CoreBench.Text

/-- The variables of an environment, in order. -/
abbrev Environment := List (String × String)

/-- What a variable's text is taken for. -/
def guess (s : String) : Value :=
  if Value.lower s = "true" then .bool true
  else if Value.lower s = "false" then .bool false
  else
    match readInt (maxInt64 + 1) maxInt64 s.toList with
    | .ok i => .int i
    | .error _ =>
      match Binary64.read? s.toList with
      | some x => .float x
      | none => .text s

/-- The text with each pair of underscores, from the left, replaced by a dot. -/
def dotted : List Char → List Char
  | '_' :: '_' :: s => '.' :: dotted s
  | c :: s => c :: dotted s
  | [] => []

/-- The name of the setting that a variable sets, for the tool with the given prefix. -/
def settingName? (tool name : String) : Option String :=
  (after? (Value.lower tool ++ "_").toList (Value.lower name).toList).map fun s =>
    String.ofList (dotted s)

namespace Environment

/-- The settings of a tool in an environment. -/
def settings (env : Environment) (tool : String) : Entries :=
  env.filterMap fun v => (settingName? tool v.1).map fun name => (name, guess v.2)

/-- The paths in the variable that lists configuration files: between commas, with blanks around the
whole list and empty paths dropped. -/
def files (env : Environment) (variable_ : String) : List String :=
  match env.lookup variable_ with
  | none => []
  | some list => ((pieces ',' (trim list.toList)).filter (· ≠ [])).map String.ofList

end Environment

end CoreBench.Settings
