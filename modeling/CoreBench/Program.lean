import CoreBench.Log.Spec
import CoreBench.Stimuli.Run
import CoreBench.Toml.Writer
import CoreBench.Trace.Run

/-!
The two programs as processes: what they are given is a tree of files, an environment and a command line, and
what they leave is an exit code, a standard output, log lines, an error report, and the files.

Stated here:
  * `stdout_of_failed`: a process that does not end well has written nothing to its standard output.
-/

namespace CoreBench

open CoreBench.Files CoreBench.Log CoreBench.Random CoreBench.Settings CoreBench.Text

/-- Why a process fails: what could not be done, and the causes of that, the deepest one last. -/
structure Failure where
  message : String
  causes : List String
  deriving DecidableEq, Repr

/-- A configuration as a TOML document. -/
def renderConfig (fs : Fields) : Except Failure String :=
  match Toml.write? fs with
  | none => .error ⟨"failed to render config as toml", []⟩
  | some s => .ok (String.ofList s)

/-- Notes a configuration in the log. -/
def printConfig (tool : Tool) (fs : Fields) : Step Failure Unit := do
  let s ← Step.ofExcept (renderConfig fs)
  Step.note ⟨.info, "tool_config", "Loaded " ++ tool.name ++ " config:\n" ++ s, []⟩

/-- A program: its tool, its configurations, the file that it works on, and what it does with a
configuration, the answer being its output. -/
structure Program (γ : Type) where
  tool : Tool
  decode : Value → Option γ
  fields : γ → Fields
  printsConfig : γ → Bool
  path : γ → String
  act : γ → Step Failure String

/-- The trace counter. -/
def traceStats : Program Trace.Config where
  tool := Trace.tool
  decode := Trace.Config.ofSettings?
  fields := Trace.Config.fields
  printsConfig := Trace.Config.printConfig
  path := Trace.Config.input
  act c := do
    let report ← Step.mapError
      (fun e => ⟨"failed to count stores in " ++ quoted c.input, e.causes⟩) (Trace.run c)
    pure (String.ofList report)

/-- The stimuli generator; `entropy` is the key of its keystream if no seed is given. -/
def stimuliGen (entropy : Key) : Program Stimuli.Config where
  tool := Stimuli.tool
  decode := Stimuli.Config.ofSettings?
  fields := Stimuli.Config.fields
  printsConfig := Stimuli.Config.printConfig
  path := Stimuli.Config.output
  act c := do
    let _ ← Step.mapError
      (fun e => ⟨"failed to generate stimuli into " ++ quoted c.output, e.causes⟩)
      (Stimuli.run entropy c)
    pure ""

/-- How a process ends: its command line is wrong or asks for a word about the program, or it fails, or it is
done. -/
inductive Ending where
  | usage (e : UsageError)
  | failed (f : Failure)
  | done (stdout : String)
  deriving DecidableEq, Repr

namespace Ending

/-- The exit code. -/
def code : Ending → Nat
  | .usage .helpRequested => 0
  | .usage .versionRequested => 0
  | .usage _ => 2
  | .failed _ => 1
  | .done _ => 0

/-- The standard output. Words about the program are not counted. -/
def stdout : Ending → String
  | .done s => s
  | _ => ""

/-- What the error report says, if there is one. -/
def failure? : Ending → Option Failure
  | .failed f => some f
  | _ => none

theorem stdout_of_failed {e : Ending} (h : e.code ≠ 0) : e.stdout = "" := by
  cases e with
  | usage u => rfl
  | failed f => rfl
  | done s => exact absurd rfl h

end Ending

/-- What a process leaves. `rejected` are the entries of its log variable that are no directives, and
`logged` are the log lines. -/
structure Outcome where
  ending : Ending
  rejected : List String
  logged : List String
  files : Tree
  deriving Repr

/-- The variable with the directives of the log filter. -/
def logVariable : String := "RUST_LOG"

namespace Program

variable {γ : Type}

/-- What a program does with a configuration. -/
def body (p : Program γ) (c : γ) : Step Failure String := do
  if p.printsConfig c then printConfig p.tool (p.fields c)
  p.act c

/-- The end of the process, and the session that it leaves. -/
def ending (p : Program γ) (files : Tree) (env : Environment) (args : List String) :
    Ending × Session :=
  match load p.tool p.decode true files env args with
  | .error (.usage e) => (.usage e, ⟨files, []⟩)
  | .error e => (.failed ⟨e.message, []⟩, ⟨files, []⟩)
  | .ok c =>
    match Step.outcome (p.body c) ⟨files, []⟩ with
    | (.error f, s) => (.failed f, s)
    | (.ok out, s) => (.done out, s)

/-- The process of a program, which logs with the filters of a dialect. -/
def process [Dialect] (p : Program γ) (files : Tree) (env : Environment) (args : List String) : Outcome :=
  let list := ((env.lookup logVariable).getD "").toList
  let (ending, s) := p.ending files env args
  { ending
    rejected := (rejected list).map fun e => quoted (String.ofList e)
    logged := shown (Spec.default.filter list) s.events
    files := s.files }

end Program

end CoreBench
