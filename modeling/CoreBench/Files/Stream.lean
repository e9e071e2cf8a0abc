import CoreBench.Files.Fault
import CoreBench.Text.Cut

/-!
Octets as a reader delivers them: in parts of any lengths, with pauses between them, and possibly with a
failure instead of an end.

Stated here:
  * `feed_append`: feeding two parts one after the other is feeding them as one, so lines do not depend
    on where the parts are cut.
-/

namespace CoreBench.Files

open CoreBench.Text

/-- One step of a delivery. -/
inductive Delivery where
  | part (octets : Octets)
  | pause
  | failure (fault : Fault)
  deriving DecidableEq, Repr

/-- All that a reader delivers, up to its end or its first failure. -/
abbrev Stream := List Delivery

/-- The octet that ends a line. -/
def newline : UInt8 := 10

/-- The lines completed by a part, each with its ending, and what is left of an open one. `opened` is
what the part continues, last octet first. -/
def feed (opened : Octets) : Octets → List Octets × Octets
  | [] => ([], opened)
  | c :: b =>
    if c = newline then
      let (ls, rest) := feed [] b
      ((c :: opened).reverse :: ls, rest)
    else feed (c :: opened) b

theorem feed_append (opened a b : Octets) :
    feed opened (a ++ b) =
      ((feed opened a).1 ++ (feed (feed opened a).2 b).1, (feed (feed opened a).2 b).2) := by
  induction a generalizing opened with
  | nil => simp [feed]
  | cons c a ih =>
    by_cases h : c = newline
    · simp [feed, h, ih]
    · simp [feed, h, ih]

/-- The lines of a stream behind an open one, each with its ending, and the failure that stopped it. A
line that a failure leaves open is not delivered. -/
def linesFrom (opened : Octets) : Stream → List Octets × Option Fault
  | [] => (if opened = [] then [] else [opened.reverse], none)
  | .pause :: s => linesFrom opened s
  | .failure f :: _ => ([], some f)
  | .part b :: s =>
    let (done, left) := feed opened b
    let (rest, f) := linesFrom left s
    (done ++ rest, f)

/-- The lines of a stream, each with its ending, and the failure that stopped it. -/
def Stream.lines (s : Stream) : List Octets × Option Fault :=
  linesFrom [] s

/-- All octets of a stream, unless it fails. -/
def Stream.whole : Stream → Except Fault Octets
  | [] => .ok []
  | .pause :: s => Stream.whole s
  | .failure f :: _ => .error f
  | .part b :: s => (Stream.whole s).map (b ++ ·)

/-- The parts of a sequence, each of `n + 1` octets but the last; `fuel` bounds their number. -/
def cutParts (n : Nat) : Nat → Octets → List Octets
  | 0, _ => []
  | _, [] => []
  | fuel + 1, c :: b => (c :: b.take n) :: cutParts n fuel (b.drop n)

/-- A stream of parts of `size` octets, a size of 0 meaning that of 1; with a pause ahead of each part
if `paused`. -/
def Stream.inParts (size : Nat) (paused : Bool) (b : Octets) : Stream :=
  (cutParts (size - 1) b.length b).flatMap fun p =>
    if paused then [.pause, .part p] else [.part p]

/-- A stream that gives out at most `limit` octets of those in `b` and fails when more is asked for.
If all of `b` is fewer, its end is met first. -/
def Stream.failingAt (limit size : Nat) (paused : Bool) (fault : Fault) (b : Octets) : Stream :=
  if limit ≤ b.length then Stream.inParts size paused (b.take limit) ++ [.failure fault]
  else Stream.inParts size paused b

end CoreBench.Files
