import CoreBench.Text.Cut

/-!
The widths of store instructions, and the width that a line of a trace stands for. A line stands for the
first width, in the order of priority, whose mnemonic occurs anywhere in it.

Stated here:
  * `octets_mnemonic`: the marker that is searched for is the mnemonic;
  * `ofLine?_eq_some`: a line stands for a width if and only if it has the marker of that width and that of
    none with priority over it.
-/

namespace CoreBench.Trace

open CoreBench.Text

/-- How much a store instruction stores. -/
inductive Width where
  | byte
  | half
  | word
  deriving DecidableEq, Repr

namespace Width

/-- The widths in the order in which they are looked for. -/
def priority : List Width := [.byte, .half, .word]

/-- The widths in the order in which they are reported. -/
def reportOrder : List Width := [.word, .half, .byte]

/-- The name of a width. -/
def name : Width → String
  | .byte => "byte"
  | .half => "half"
  | .word => "word"

/-- The mnemonic of the store instruction. -/
def mnemonic : Width → String
  | .byte => "sb"
  | .half => "sh"
  | .word => "sw"

/-- The octets of the mnemonic. -/
def marker : Width → Octets
  | .byte => [115, 98]
  | .half => [115, 104]
  | .word => [115, 119]

theorem octets_mnemonic (w : Width) : octets w.mnemonic = w.marker := by
  cases w <;> decide +kernel

/-- Whether a line has the mnemonic of a width. -/
def marks (line : Octets) (w : Width) : Bool :=
  occursIn w.marker line

/-- The width that a line stands for. -/
def ofLine? (line : Octets) : Option Width :=
  priority.find? (marks line)

theorem ofLine?_eq_some {line : Octets} {w : Width} :
    ofLine? line = some w ↔
      marks line w = true ∧ ∀ v ∈ priority.takeWhile (· ≠ w), marks line v = false := by
  cases w <;> simp [ofLine?, priority, List.find?_cons] <;>
    cases marks line .byte <;> cases marks line .half <;> cases marks line .word <;> simp

end Width

end CoreBench.Trace
