import CoreBench.Text.Digits

/-!
Binary floating-point numbers of 64 bits as exact values: a sign, a significand of at most 53 bits
and a power of two, or an infinity, or no number at all. Everything is computed in integers.
-/

namespace CoreBench

/-- A binary floating-point number of 64 bits. A finite one is `significand * 2 ^ exponent`, with its
sign; both zeros have significand 0. -/
inductive Binary64 where
  | nan
  | infinite (negative : Bool)
  | finite (negative : Bool) (significand : Nat) (exponent : Int)
  deriving DecidableEq, Repr

namespace Binary64

/-- The exponent of the smallest finite numbers. -/
def minExponent : Int := -1074

/-- The exponent of the largest finite numbers. -/
def maxExponent : Int := 971

/-- The least significand that takes all of its 53 bits. -/
def leastNormal : Nat := 0x10000000000000

/-- `num / den` rounded to the nearest integer, a tie going to the even one. -/
def roundEven (num den : Nat) : Nat :=
  let q := num / den
  let r := 2 * (num % den)
  if r < den then q else if den < r then q + 1 else if q % 2 = 0 then q else q + 1

/-- `n * base ^ e` over `d * base ^ (-e)`, whichever power is positive. -/
def scale (base : Nat) (e : Int) (n d : Nat) : Nat × Nat :=
  match e with
  | .ofNat k => (n * Nat.pow base k, d)
  | .negSucc k => (n, d * Nat.pow base (k + 1))

/-- The largest `k` with `2 ^ k ≤ num / den`, for positive `num` and `den`. -/
def floorLog2 (num den : Nat) : Int :=
  let k : Int := (num.log2 : Int) - den.log2
  let (n, d) := scale 2 (-k) num den
  if d ≤ n then k else k - 1

/-- The number nearest to `num / den` with the given sign, a tie going to the even significand. -/
def ofRatio (negative : Bool) (num den : Nat) : Binary64 :=
  if num = 0 then .finite negative 0 0
  else
    let e := max minExponent (floorLog2 num den - 52)
    let (n, d) := scale 2 (-e) num den
    let m := roundEven n d
    let (m, e) := if m = 2 * leastNormal then (leastNormal, e + 1) else (m, e)
    if maxExponent < e then .infinite negative
    else if m = 0 then .finite negative 0 0
    else .finite negative m e

/-- The number nearest to `significand * 10 ^ exponent`. Beyond what any number of 64 bits can be
near to, the answer is known without computing the power. -/
def ofDecimal (negative : Bool) (significand : Nat) (exponent : Int) : Binary64 :=
  if significand = 0 then .finite negative 0 0
  else
    let top : Int := exponent + (Nat.toDigits 10 significand).length
    if 400 < top then .infinite negative
    else if top < -400 then .finite negative 0 0
    else
      let (n, d) := scale 10 exponent significand 1
      ofRatio negative n d

/-- Whether the number is one of the zeros. -/
def isZero : Binary64 → Bool
  | .finite _ 0 _ => true
  | _ => false

/-- Whether the number is neither infinite nor missing. -/
def isFinite : Binary64 → Bool
  | .finite _ _ _ => true
  | _ => false

/-- A magnitude rounded to the nearest integer, a half going up. -/
def roundHalfUp (significand : Nat) (exponent : Int) : Nat :=
  let (n, d) := scale 2 exponent significand 1
  (2 * n + d) / (2 * d)

/-- The number rounded to the nearest integer, a half going away from zero, and then brought into
the 64 bits without a sign: 0 for what is negative or no number, the largest for what is too large. -/
def toNat64 : Binary64 → Nat
  | .nan => 0
  | .infinite true => 0
  | .infinite false => max64
  | .finite true _ _ => 0
  | .finite false m e => min (roundHalfUp m e) max64

end Binary64

end CoreBench
