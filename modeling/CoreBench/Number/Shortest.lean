import CoreBench.Number.Binary64

/-!
The shortest decimal form of a binary number: the fewest digits that read back as the number, and of
several such the nearest to it, written without an exponent.

A number `m * 2 ^ e` is read back from every decimal between the midpoints to its two neighbours, the
midpoints themselves included exactly when `m` is even. A grid of decimals has a point in that span if
and only if one of the two grid points around the number is in it, so only those two are tried, on ever
finer grids.
-/

namespace CoreBench.Binary64

/-- The span of decimals that read back as a positive number, and the number itself, as numerators
over one denominator. -/
structure Span where
  low : Nat
  value : Nat
  high : Nat
  den : Nat
  closed : Bool
  deriving DecidableEq, Repr

/-- The span of `m * 2 ^ e`, in quarters of a unit in the last place. -/
def spanOf (m : Nat) (e : Int) : Span :=
  let below := if m = leastNormal ∧ minExponent < e then 1 else 2
  let (value, den) := scale 2 (e - 2) (4 * m) 1
  let (unit, _) := scale 2 (e - 2) 1 1
  { low := value - below * unit, value, high := value + 2 * unit, den, closed := m % 2 = 0 }

/-- Whether the decimal `n / d` lies in the span. -/
def Span.has (s : Span) (n d : Nat) : Bool :=
  let x := n * s.den
  if s.closed then s.low * d ≤ x && x ≤ s.high * d else s.low * d < x && x < s.high * d

/-- The best point of the grid with step `10 ^ k`, if one of the two around the number is in the
span: the nearer of the two if both are, the even one in a tie. -/
def Span.onGrid? (s : Span) (k : Int) : Option Nat :=
  let (step, d) := scale 10 k 1 1
  -- the number in steps is `value * d / (den * step)`
  let n := s.value * d
  let unit := s.den * step
  let q := n / unit
  let r := 2 * (n % unit)
  match s.has (q * step) d, s.has ((q + 1) * step) d with
  | true, true => some (if r < unit then q else if unit < r then q + 1 else if q % 2 = 0 then q else q + 1)
  | true, false => some q
  | false, true => some (q + 1)
  | false, false => none

/-- The first grid that has a point in the span, from the step `10 ^ k` down. -/
def Span.search (s : Span) : Nat → Int → Nat × Int
  | 0, k => ((s.onGrid? k).getD 0, k)
  | fuel + 1, k =>
    match s.onGrid? k with
    | some n => if n = 0 then search s fuel (k - 1) else (n, k)
    | none => search s fuel (k - 1)

/-- An upper bound of the decimal exponent of `m * 2 ^ e`. -/
def decimalTop (m : Nat) (e : Int) : Int :=
  ((m.log2 : Int) + 1 + e) * 30103 / 100000 + 2

/-- The shortest decimal `n * 10 ^ k` that reads back as the positive number `m * 2 ^ e`. -/
def shortest (m : Nat) (e : Int) : Nat × Int :=
  (spanOf m e).search 40 (decimalTop m e)

/-- The decimal `n * 10 ^ k` in full: zeros for the missing places, and a point only ahead of a
fraction. -/
def positional (n : Nat) (k : Int) : List Char :=
  let ds := Nat.toDigits 10 n
  match k with
  | .ofNat j => ds ++ List.replicate j '0'
  | .negSucc j =>
    let places := j + 1
    if places < ds.length then ds.take (ds.length - places) ++ '.' :: ds.drop (ds.length - places)
    else '0' :: '.' :: List.replicate (places - ds.length) '0' ++ ds

/-- The text of a number: its shortest decimal in full, a `-` ahead of a negative one. -/
def text : Binary64 → String
  | .nan => "NaN"
  | .infinite negative => if negative then "-inf" else "inf"
  | .finite negative m e =>
    let sign := if negative then ['-'] else []
    if m = 0 then String.ofList (sign ++ ['0'])
    else
      let (n, k) := shortest m e
      String.ofList (sign ++ positional n k)

end CoreBench.Binary64
