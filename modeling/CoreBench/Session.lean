import CoreBench.Files.Access
import CoreBench.Log.Event

/-!
Sessions: the files that a run works on and the log it keeps. A step of a run takes a session to an answer
or an error and to the session after it, which is kept in both cases: what was written before an error
stays written.
-/

namespace CoreBench

open CoreBench.Files CoreBench.Log CoreBench.Text

/-- The files and the log, the oldest event first. -/
structure Session where
  files : Tree
  events : List Event := []
  deriving Repr

/-- A step that answers with an `α` or fails with an `ε`. -/
abbrev Step (ε α : Type) := EStateM ε Session α

namespace Step

variable {ε α : Type}

/-- An answer or an error that is known. -/
def ofExcept : Except ε α → Step ε α
  | .ok a => pure a
  | .error e => throw e

/-- The outcome of a step from a session, and the session after it. -/
def outcome (x : Step ε α) (s : Session) : Except ε α × Session :=
  match x.run s with
  | .ok a s => (.ok a, s)
  | .error e s => (.error e, s)

/-- A step with another account of its errors. -/
def mapError {δ : Type} (f : δ → ε) (x : Step δ α) : Step ε α := fun s =>
  match x s with
  | .ok a s => .ok a s
  | .error e s => .error (f e) s

/-- Notes an event. -/
def note (e : Event) : Step ε Unit :=
  modify fun s => { s with events := s.events ++ [e] }

/-- The stream of the file that a path leads to. -/
def openRead (path : String) : Step FileError Stream := do
  let s ← get
  let stream ← ofExcept (s.files.openRead path)
  note ⟨.trace, "fs_utils", "opened " ++ quoted path ++ " for reading", []⟩
  pure stream

/-- The text of the file that a path leads to. -/
def readText (path : String) : Step FileError String := do
  let s ← get
  ofExcept (s.files.readText path)

/-- The place of a file made empty for writing. -/
def create (path : String) : Step FileError Place := do
  let s ← get
  let (files, p) ← ofExcept (s.files.create path)
  set { s with files }
  note ⟨.trace, "fs_utils", "created " ++ quoted path ++ " for writing", []⟩
  pure p

/-- Octets written behind what stands at a place, which was reached by `path`. -/
def append (path : String) (p : Place) (b : Octets) : Step FileError Unit := do
  let s ← get
  match s.files.append p b with
  | .error f => throw ⟨.writing, path, f⟩
  | .ok files => set { s with files }

/-- A path made absolute; as it is, with a warning, if there is no working directory. -/
def absolute (path : String) : Step ε String := do
  let s ← get
  match s.files.absolute? path with
  | some a => pure a
  | none =>
    note ⟨.warn, "fs_utils",
      "unable to resolve current dir for " ++ quoted path ++ ": " ++ Fault.notFound.message, []⟩
    pure path

end Step

end CoreBench
