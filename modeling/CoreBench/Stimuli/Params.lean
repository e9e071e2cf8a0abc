import CoreBench.Text.Digits
import CoreBench.Stimuli.Error

/-!
The parameters of stimuli: the size of the matrices, and the range of their elements, which go from `-range`
up to `range - 1`.

Stated here:
  * `validate_eq_ok`: parameters are valid exactly if the size is one of those allowed, the range is
    positive, and no element of a product can leave the 32 bits.
-/

namespace CoreBench.Stimuli

/-- The size of the multiplication test. -/
def defaultSize : Nat := 24

/-- The product of size and range, as far as the range is derived from the size. -/
def rangeBudget : Nat := 0x8000

/-- The number of cells of a square, if a number of 64 bits can hold it. -/
def cellCount? (size : Nat) : Option Nat :=
  if size * size ≤ max64 then some (size * size) else none

/-- A size and a range. -/
structure Params where
  size : Nat
  range : Nat
  deriving DecidableEq, Repr

namespace Params

/-- The parameters of a size, with the range derived from it; sizes beyond the budget have no range. -/
def ofSize (size : Nat) : Params :=
  ⟨size, if size = 0 then 0 else rangeBudget / size⟩

/-- The parameters of a size, with the given range, if there is one. -/
def ofSizeRange (size : Nat) (range : Option Nat) : Params :=
  match range with
  | none => ofSize size
  | some range => ⟨size, range⟩

/-- The largest magnitude of an element of a product. -/
def worstCase (p : Params) : Nat :=
  p.size * p.range * p.range

/-- What is wrong with the parameters, if anything. -/
def validate (p : Params) : Except StimuliError Unit :=
  if p.size = 0 then .error .invalidSize
  else if maxSize < p.size then .error (.sizeTooLarge p.size maxSize)
  else if p.range = 0 then .error (.invalidRange p.size)
  else if maxInt32 < p.worstCase then .error (.rangeOverflow p.size p.range p.worstCase)
  else .ok ()

theorem validate_eq_ok {p : Params} :
    p.validate = .ok () ↔
      1 ≤ p.size ∧ p.size ≤ maxSize ∧ 1 ≤ p.range ∧ p.worstCase ≤ maxInt32 := by
  unfold validate
  split
  · simp; omega
  · split
    · simp; omega
    · split
      · simp; omega
      · split
        · simp; omega
        · simp; omega

end Params

end CoreBench.Stimuli
