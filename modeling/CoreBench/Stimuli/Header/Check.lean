import CoreBench.Stimuli.Header.Reader

/-!
Checking headers: whether the product in a header is that of its operands, and whether a header holds a
given case.

A header that was not read from a text may have matrices that are smaller than its size says. Checking it
has no outcome if it comes to a cell that is not there.
-/

namespace CoreBench.Stimuli.Header

/-- What is wrong with `n` cells of the product from position `i` on, given the product computed. -/
def compareFrom (h : Header) (actual : Matrix) (i : Nat) : Nat → Option (Except StimuliError Unit)
  | 0 => some (.ok ())
  | n + 1 =>
    match h.expected.get? (i / h.size) (i % h.size), actual.get? (i / h.size) (i % h.size) with
    | some e, some v =>
      if e = v then compareFrom h actual (i + 1) n
      else some (.error (.mismatch (i / h.size) (i % h.size) e v))
    | _, _ => none

/-- What is wrong with the product in a header: it cannot be computed, or its first cell that differs. -/
def verify (h : Header) : Option (Except StimuliError Unit) :=
  match h.a.multiply h.b with
  | .error e => some (.error e)
  | .ok actual => compareFrom h actual 0 (h.size * h.size)

/-- Whether a header holds a case. -/
def holds (h : Header) (c : Case) : Bool :=
  h.size = c.params.size ∧ h.a = c.a ∧ h.b = c.b ∧ h.expected = c.expected

end CoreBench.Stimuli.Header
