import CoreBench.Stimuli.Header.Writer
import CoreBench.Text.Cut

/-!
Reading headers back. The size is on the first line that starts with its directive, each array stands between
its opening and the next closing brace with a semicolon, wherever these are, and every line that starts like
the declaration of a buffer has to be one. Blanks around lines and around the elements of arrays have no
meaning, and neither have empty elements.

Stated here:
  * `readSize_le`: a size that is read is one of those allowed.
-/

namespace CoreBench.Stimuli

open CoreBench.Text

/-- What a header holds. The buffers come with their sections, in order. -/
structure Header where
  size : Nat
  a : Matrix
  b : Matrix
  expected : Matrix
  buffers : List (String × String)
  deriving DecidableEq, Repr

namespace Header

/-- What stands ahead of the size. -/
def sizeDirective : List Char := "#define SIZE ".toList

/-- The size of the matrices. -/
def readSize (s : List Char) : Except HeaderFault Nat :=
  match (lines s).findSome? fun l => after? sizeDirective (trim l) with
  | none => .error .missingSize
  | some v =>
    match readNat max64 (trim v) with
    | .error f => .error (.badSize (String.ofList v) f)
    | .ok n => if n = 0 ∨ maxSize < n then .error (.sizeOutside n) else .ok n

theorem readSize_le {s : List Char} {n : Nat} (h : readSize s = .ok n) : 1 ≤ n ∧ n ≤ maxSize := by
  unfold readSize at h
  split at h
  · simp at h
  · split at h
    · simp at h
    · split at h
      · simp at h
      · simp only [Except.ok.injEq] at h; omega

/-- The text between the opening of an array and its end. -/
def arrayBody (name : String) (s : List Char) : Except HeaderFault (List Char) :=
  match cut? (arrayOpening name).toList s with
  | none => .error (.missingArray name)
  | some (_, rest) =>
    match cut? ['\x7d', ';'] rest with
    | none => .error (.unterminatedArray name)
    | some (body, _) => .ok body

/-- The items of an array that are not blank. -/
def arrayItems (body : List Char) : List (List Char) :=
  ((pieces ',' body).map trim).filter (· ≠ [])

/-- The elements that items spell, behind those in `acc`. -/
def readElements (name : String) (acc : Array Int32) : List (List Char) → Except HeaderFault (Array Int32)
  | [] => .ok acc
  | item :: items =>
    match readInt (maxInt32 + 1) maxInt32 item with
    | .error f => .error (.badElement (String.ofList item) name f)
    | .ok i => readElements name (acc.push (Int32.ofInt i)) items

/-- The elements of an array. -/
def readArray (name : String) (s : List Char) : Except HeaderFault (Array Int32) :=
  match arrayBody name s with
  | .error f => .error f
  | .ok body => readElements name #[] (arrayItems body)

/-- The section and the name of a buffer, if a line starts like the declaration of one. -/
def readBuffer? (line : List Char) : Option (Except HeaderFault (String × String)) :=
  (after? bufferOpening.toList line).map fun rest =>
    match cut? bufferMiddle.toList rest with
    | none => .error (.badBuffer (String.ofList line))
    | some (sect, decl) =>
      match before? bufferClosing.toList decl with
      | none => .error (.badBuffer (String.ofList line))
      | some name => .ok (String.ofList sect, String.ofList name)

/-- The buffers that the given lines declare. -/
def readBuffers : List (List Char) → Except HeaderFault (List (String × String))
  | [] => .ok []
  | l :: ls =>
    match readBuffer? (trim l) with
    | none => readBuffers ls
    | some (.error f) => .error f
    | some (.ok b) => (readBuffers ls).map (b :: ·)

/-- The matrix in the array of a name. -/
def readMatrix (size : Nat) (name : String) (s : List Char) : Except StimuliError Matrix :=
  match readArray name s with
  | .error f => .error (.parse f)
  | .ok cells => Matrix.ofCells? size cells

/-- The header that a text holds. -/
def read (s : List Char) : Except StimuliError Header := do
  let size ← (readSize s).mapError .parse
  let a ← readMatrix size operandA s
  let b ← readMatrix size operandB s
  let expected ← readMatrix size product s
  let buffers ← (readBuffers (lines s)).mapError .parse
  .ok ⟨size, a, b, expected, buffers⟩

end Header

end CoreBench.Stimuli
