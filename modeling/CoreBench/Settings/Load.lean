import CoreBench.Files.Access
import CoreBench.Settings.Arguments
import CoreBench.Settings.Environment
import CoreBench.Settings.KeyPath
import CoreBench.Toml.Document

/-!
Loading the settings of a tool. They come from four kinds of sources, of which the later ones stand over the
earlier ones: the configuration files listed in a variable, those named on the command line, the tool's
variables, and the command line itself.

Stated here:
  * `load_usage`: what is wrong with the command line is reported ahead of everything else.
-/

namespace CoreBench.Settings

open CoreBench.Files CoreBench.Text

/-- A program with settings: its name, what its variables start with, and the options it takes. -/
structure Tool where
  name : String
  variableStem : String
  options : List Opt
  deriving Repr

/-- The variable that lists configuration files of a tool. -/
def Tool.listVariable (t : Tool) : String :=
  t.variableStem ++ "_CONFIG"

/-- A text that shows how a tool is called. -/
def Tool.help (t : Tool) : String :=
  "Usage: " ++ t.name ++ " [OPTIONS]\n\nOptions:\n"
    ++ String.join ((t.options ++ [Opt.help, Opt.version]).map fun o => o.line ++ "\n")

/-- Why settings cannot be loaded: the command line is wrong; it gives a number that is no setting; a
configuration file is missing or malformed; or a setting has a value of the wrong type. -/
inductive LoadError where
  | usage (e : UsageError)
  | arguments
  | sources (tool : String)
  | settings (tool : String)
  deriving DecidableEq, Repr

/-- The wording of an error, usage apart. -/
def LoadError.message : LoadError → String
  | .usage _ => ""
  | .arguments => "invalid command line arguments"
  | .sources tool => "failed to load " ++ tool ++ " config"
  | .settings tool => "invalid " ++ tool ++ " config"

/-! ## Configuration files -/

/-- A path in reverse, without the slashes and the single points behind its last name. -/
def dropBehind : List Char → List Char
  | '/' :: s => dropBehind s
  | '.' :: '/' :: s => dropBehind s
  | s => s

/-- A path with `.toml` behind its last name, if it has one. -/
def withExtension? (path : String) : Option String :=
  let s := dropBehind path.toList.reverse
  let last := s.takeWhile (· ≠ '/')
  if last = [] ∨ last = ['.', '.'] then none
  else some (String.ofList (s.reverse ++ ".toml".toList))

/-- The regular file that the path of a configuration file names, or that it names with `.toml` behind. -/
def configFile? (t : Tree) (path : String) : Option String := do
  let path ← t.absolute? path
  if t.isFile path then some path
  else
    let path ← withExtension? path
    if t.isFile path then some path else none

/-- The settings in the configuration file that a path names. -/
def readFile? (t : Tree) (path : String) : Option Entries := do
  let path ← configFile? t path
  match t.readText path with
  | .error _ => none
  | .ok s => Toml.read s.toList

/-! ## All sources -/

/-- Whether a value is no number beyond 64 bits with a sign. -/
def fits : Value → Bool
  | .int i => i ≤ maxInt64
  | _ => true

/-- The paths of the configuration files of a tool, in the order in which they are read. -/
def configPaths (tool : Tool) (env : Environment) (given : Arguments) : List String :=
  env.files tool.listVariable ++ given.files

/-- The settings of all sources in one table, given what the command line says. -/
def gather (tool : Tool) (files : Tree) (env : Environment) (given : Arguments) :
    Except LoadError Value :=
  if given.settings.all fun e => fits e.2 then
    match (configPaths tool env given).mapM (readFile? files) with
    | none => .error (.sources tool.name)
    | some sources =>
      .ok (Value.ofSources (sources ++ [env.settings tool.variableStem, given.settings]))
  else .error .arguments

/-- The settings of a tool, brought to their types by `decode`. -/
def load {γ : Type} (tool : Tool) (decode : Value → Option γ) (versioned : Bool) (files : Tree)
    (env : Environment) (args : List String) : Except LoadError γ :=
  match Arguments.read tool.options versioned args with
  | .error e => .error (.usage e)
  | .ok given =>
    match gather tool files env given with
    | .error e => .error e
    | .ok v =>
      match decode v with
      | none => .error (.settings tool.name)
      | some c => .ok c

theorem load_usage {γ : Type} {tool : Tool} {decode : Value → Option γ} {versioned : Bool}
    {files : Tree} {env : Environment} {args : List String} {e : UsageError}
    (h : Arguments.read tool.options versioned args = .error e) :
    load tool decode versioned files env args = .error (.usage e) := by
  simp [load, h]

/-- The setting of a name brought to its type by `read`, or `missing` if it has not been set. -/
def Value.setting {α : Type} (v : Value) (name : String) (read : Value → Option α) (missing : α) :
    Option α :=
  match v.entries.lookup name with
  | none => some missing
  | some w => read w

end CoreBench.Settings
