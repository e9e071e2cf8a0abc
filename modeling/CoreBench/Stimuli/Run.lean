import CoreBench.Random.Keystream
import CoreBench.Random.Seed
import CoreBench.Session
import CoreBench.Stimuli.Config
import CoreBench.Stimuli.Header.Check

/-!
Generating the stimuli of a configuration into its header file, and reading the file back if the configuration
asks for it.
-/

namespace CoreBench.Stimuli

open CoreBench.Files CoreBench.Random CoreBench.Text

/-- How a number that may not be given is shown. -/
def shownNumber : Option Nat → String
  | none => "None"
  | some n => "Some(" ++ toString n ++ ")"

/-- Notes what is about to be generated. -/
def noteStart (p : Params) (seed : Option Nat) : Step StimuliError Unit :=
  Step.note ⟨.info, "stimuli_gen", "generating stimuli",
    [("size", toString p.size), ("range", toString p.range), ("seed", shownNumber seed)]⟩

/-- Notes what has been generated. -/
def noteCase (p : Params) : Step StimuliError Unit :=
  Step.note ⟨.debug, "stimuli_gen::stimuli", "generated stimuli",
    [("size", toString p.size), ("range", toString p.range)]⟩

/-- A case drawn from the start of a keystream. -/
def drawCase (k : Keystream) (p : Params) : Step StimuliError Case := do
  let c ← Step.ofExcept (Case.generate Keystream.next p k).1
  noteCase p
  pure c

/-- A file with the header of a case. -/
def writeHeaderFile (path : String) (c : Case) (sect : String) : Step StimuliError Unit := do
  let place ← Step.mapError .file (Step.create path)
  Step.mapError .file (Step.append path place (octets (c.header sect)))
  let shown ← Step.absolute path
  Step.note ⟨.info, "stimuli_gen::header", "wrote stimuli header " ++ quoted shown,
    [("size", toString c.params.size)]⟩

/-- The header in a file. -/
def readHeaderFile (path : String) : Step StimuliError Header := do
  let s ← Step.mapError .file (Step.readText path)
  Step.ofExcept (Header.read s.toList)

/-- The outcome of checking a header; no outcome is an error of its own. -/
def checked (path : String) (h : Header) : Except StimuliError Unit :=
  h.verify.getD (.error (.roundTrip path))

/-- Reads the header of a case back and checks it. -/
def confirm (path : String) (c : Case) : Step StimuliError Unit := do
  let h ← readHeaderFile path
  if h.holds c then
    Step.ofExcept (checked path h)
    Step.note ⟨.info, "stimuli_gen", "verified " ++ quoted path, []⟩
  else throw (.roundTrip path)

/-- The keystream of a configuration; `entropy` is the key if no seed is given. -/
def Config.keystream (c : Config) (entropy : Key) : Keystream :=
  match c.seed with
  | none => .ofKey entropy
  | some seed => .ofSeed (UInt64.ofNat seed)

/-- Generates the stimuli of a configuration and writes them. -/
def run (entropy : Key) (c : Config) : Step StimuliError Case := do
  let p ← Step.ofExcept c.validParams
  noteStart p c.seed
  let case ← drawCase (c.keystream entropy) p
  writeHeaderFile c.output case c.sect
  if c.verify then confirm c.output case
  pure case

/-- Runs one after the other, each with the key of its entropy: what they come to, and the session behind them. A
run that fails stops none of those behind it. -/
def runAll : List (Key × Config) → Session → List (Except StimuliError Case) × Session
  | [], s => ([], s)
  | (entropy, c) :: rs, s =>
    let (r, s) := Step.outcome (run entropy c) s
    let (results, s) := runAll rs s
    (r :: results, s)

end CoreBench.Stimuli
