import CoreBench.Files.Fault
import CoreBench.Text.Cut

/-!
Writers that take a limited number of octets. What is written comes in pieces; a piece that does not fit is
taken as far as it fits, and nothing is taken behind it.

Stated here:
  * `writeUpTo_fst`: what was taken is the start of what was to be written.
-/

namespace CoreBench.Files

open CoreBench.Text

/-- What a writer with room for `room` octets takes of the pieces, and the fault if that is not all. -/
def writeUpTo (room : Nat) : List Octets → Octets × Option Fault
  | [] => ([], none)
  | p :: ps =>
    if p.length ≤ room then
      let (taken, f) := writeUpTo (room - p.length) ps
      (p ++ taken, f)
    else (p.take room, some .stalled)

theorem writeUpTo_fst (room : Nat) (ps : List Octets) :
    (writeUpTo room ps).1 = ps.flatten.take room := by
  induction ps generalizing room with
  | nil => simp [writeUpTo]
  | cons p ps ih =>
    simp only [writeUpTo]
    split
    · next h => simp [ih, List.take_append, List.take_of_length_le h]
    · next h =>
      simp only [List.flatten_cons, List.take_append]
      rw [show room - p.length = 0 by omega]
      simp

end CoreBench.Files
