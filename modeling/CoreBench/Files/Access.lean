import CoreBench.Files.Tree
import CoreBench.Text.Quoted

/-!
Access to files: opening one for reading, creating one for writing, reading one as text. An error names
the access and the path as it was given.

Stated here:
  * `create_of_ne`: creating a file changes no other place.
-/

namespace CoreBench.Files

open CoreBench.Text

/-- The ways to use a file. -/
inductive Access where
  | opening
  | creating
  | reading
  | writing
  deriving DecidableEq, Repr

/-- The word for an access in a message. -/
def Access.word : Access → String
  | .opening => "opening"
  | .creating => "creating"
  | .reading => "reading"
  | .writing => "writing"

/-- An access to a file that was refused. -/
structure FileError where
  access : Access
  path : String
  fault : Fault
  deriving DecidableEq, Repr

/-- The wording of a refused access. -/
def FileError.message (e : FileError) : String :=
  "Error " ++ e.access.word ++ " " ++ quoted e.path ++ ": " ++ e.fault.message

namespace Node

/-- What reading at a node delivers. -/
def stream : Node → Stream
  | .file content => [.part content]
  | .directory => [.failure .isADirectory]
  | .null => []
  | .full => []

end Node

namespace Tree

/-- What reading at a place delivers. -/
def streamAt (t : Tree) (p : Place) : Stream :=
  (t.node? p).elim [] Node.stream

/-- The stream of the file that a path leads to. -/
def openRead (t : Tree) (path : String) : Except FileError Stream :=
  match t.locate path with
  | .error f => .error ⟨.opening, path, f⟩
  | .ok p => .ok (t.streamAt p)

/-- The text of the file that a path leads to. -/
def readText (t : Tree) (path : String) : Except FileError String :=
  match t.locate path with
  | .error f => .error ⟨.reading, path, f⟩
  | .ok p =>
    match Stream.whole (t.streamAt p) with
    | .error f => .error ⟨.reading, path, f⟩
    | .ok b =>
      match ofOctets? b with
      | none => .error ⟨.reading, path, .notText⟩
      | some s => .ok s

/-- A file made empty for writing, new if it was not there, and its place. What is no regular file is
left as it is. -/
def create (t : Tree) (path : String) : Except FileError (Tree × Place) :=
  match t.locateNew path with
  | .error f => .error ⟨.creating, path, f⟩
  | .ok p =>
    match t.node? p with
    | none | some (.file _) => .ok (t.put p (.file []), p)
    | some _ => .ok (t, p)

theorem create_of_ne {t u : Tree} {path : String} {p q : Place} (h : t.create path = .ok (u, p))
    (hq : q ≠ p) : u.node? q = t.node? q := by
  simp only [create] at h
  split at h
  · simp at h
  · split at h
    all_goals
      simp only [Except.ok.injEq, Prod.mk.injEq] at h
      obtain ⟨rfl, rfl⟩ := h
    · exact node?_put_of_ne hq
    · exact node?_put_of_ne hq
    · rfl

/-- Octets written at the end of what stands at a place. -/
def append (t : Tree) (p : Place) (b : Octets) : Except Fault Tree :=
  match t.node? p with
  | none => .error .notFound
  | some (.file content) => .ok (t.put p (.file (content ++ b)))
  | some .directory => .error .isADirectory
  | some .null => .ok t
  | some .full => if b = [] then .ok t else .error .noSpace

end Tree

end CoreBench.Files
