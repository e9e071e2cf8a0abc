import CoreBench.Files.Stream
import CoreBench.Trace.Width

/-!
Counts of the lines of a trace that stand for store instructions, by width.

Stated here:
  * `get_record_self`, `get_record_of_ne`: recording a width adds one to its count and to no other;
  * `total_eq`: the total is the sum over all widths;
  * `ofLines_append`: counting is additive over lines.
-/

namespace CoreBench.Trace

open CoreBench.Files CoreBench.Text

/-- How many lines stand for a store of each width. -/
@[ext]
structure Counts where
  sw : Nat
  sh : Nat
  sb : Nat
  deriving DecidableEq, Repr

namespace Counts

/-- No lines. -/
def zero : Counts := ⟨0, 0, 0⟩

/-- The sum of two counts, width by width. -/
def add (a b : Counts) : Counts :=
  ⟨a.sw + b.sw, a.sh + b.sh, a.sb + b.sb⟩

/-- One line that stands for a width. -/
def single : Width → Counts
  | .byte => ⟨0, 0, 1⟩
  | .half => ⟨0, 1, 0⟩
  | .word => ⟨1, 0, 0⟩

/-- The counts with `n` more lines that stand for a width. -/
def recordMany (c : Counts) (w : Width) (n : Nat) : Counts :=
  match w with
  | .byte => { c with sb := c.sb + n }
  | .half => { c with sh := c.sh + n }
  | .word => { c with sw := c.sw + n }

/-- The counts with one more line that stands for a width. -/
def record (c : Counts) (w : Width) : Counts :=
  c.recordMany w 1

/-- The count of a width. -/
def get (c : Counts) : Width → Nat
  | .byte => c.sb
  | .half => c.sh
  | .word => c.sw

/-- The count of all widths. -/
def total (c : Counts) : Nat :=
  c.sw + c.sh + c.sb

theorem get_recordMany_self (c : Counts) (w : Width) (n : Nat) :
    (c.recordMany w n).get w = c.get w + n := by
  cases w <;> rfl

theorem get_recordMany_of_ne {v w : Width} (c : Counts) (n : Nat) (h : v ≠ w) :
    (c.recordMany w n).get v = c.get v := by
  cases v <;> cases w <;> first | rfl | exact absurd rfl h

theorem get_record_self (c : Counts) (w : Width) : (c.record w).get w = c.get w + 1 :=
  c.get_recordMany_self w 1

theorem get_record_of_ne {v w : Width} (c : Counts) (h : v ≠ w) : (c.record w).get v = c.get v :=
  c.get_recordMany_of_ne 1 h

theorem total_eq (c : Counts) : c.total = (Width.reportOrder.map c.get).foldr (· + ·) 0 := by
  simp [total, Width.reportOrder, get]
  omega

/-- The counts with one more line, which may stand for no width. -/
def addLine (c : Counts) (line : Octets) : Counts :=
  (Width.ofLine? line).elim c c.record

/-- The counts of several lines. -/
def ofLines (lines : List Octets) : Counts :=
  lines.foldl addLine zero

theorem record_eq_add (c : Counts) (w : Width) : c.record w = c.add (single w) := by
  cases w <;> rfl

theorem add_zero (c : Counts) : c.add zero = c := rfl

theorem add_assoc (a b c : Counts) : (a.add b).add c = a.add (b.add c) := by
  simp [add, Nat.add_assoc]

theorem add_comm (a b : Counts) : a.add b = b.add a := by
  simp [add, Nat.add_comm]

theorem zero_add (c : Counts) : zero.add c = c := by
  rw [add_comm, add_zero]

/-- The counts of one line. -/
def ofLine (line : Octets) : Counts :=
  (Width.ofLine? line).elim zero single

theorem addLine_eq_add (c : Counts) (line : Octets) : c.addLine line = c.add (ofLine line) := by
  unfold addLine ofLine
  cases Width.ofLine? line with
  | none => rfl
  | some w => exact record_eq_add c w

theorem foldl_addLine (c : Counts) (lines : List Octets) :
    lines.foldl addLine c = c.add (ofLines lines) := by
  unfold ofLines
  induction lines generalizing c with
  | nil => rfl
  | cons l ls ih => rw [List.foldl_cons, List.foldl_cons, ih, ih (zero.addLine l), addLine_eq_add,
      addLine_eq_add, zero_add, add_assoc]

theorem ofLines_append (x y : List Octets) : ofLines (x ++ y) = (ofLines x).add (ofLines y) := by
  rw [ofLines, List.foldl_append, foldl_addLine]
  rfl

/-- The counts of what a reader delivers, up to its end; a failure leaves none. -/
def ofStream (s : Stream) : Except Fault Counts :=
  match s.lines with
  | (_, some f) => .error f
  | (ls, none) => .ok (ofLines ls)

/-- The counts of a log that is at hand as a whole. -/
def ofOctets (b : Octets) : Counts :=
  ofLines (Stream.lines [.part b]).1

end Counts

end CoreBench.Trace
