import CoreBench.Number.Binary64
import CoreBench.Text.Digits

/-!
Decimal numerals of binary numbers: a sign, digits with at most one point among them, an exponent; or
the words `inf`, `infinity` and `nan` in any case.
-/

namespace CoreBench.Binary64

open CoreBench.Text

/-- A decimal behind its sign: digits with a point somewhere, and a power of ten. -/
structure Decimal where
  whole : List Char
  fraction : List Char
  exponent : Int
  deriving DecidableEq, Repr

/-- The number nearest to a decimal with the given sign. -/
def Decimal.toBinary64 (d : Decimal) (negative : Bool) : Binary64 :=
  ofDecimal negative (Nat.ofDigitChars 10 (d.whole ++ d.fraction) 0) (d.exponent - d.fraction.length)

/-- The leading digits of a text, and what follows them. -/
def spanDigits (s : List Char) : List Char × List Char :=
  s.span Char.isDigit

/-- An exponent: nothing, or `e` or `E` with an integer behind it. -/
def readExponent : List Char → Option Int
  | [] => some 0
  | c :: s =>
    if c ≠ 'e' ∧ c ≠ 'E' then none
    else
      let (negative, ds) := match s with
        | '-' :: t => (true, t)
        | '+' :: t => (false, t)
        | t => (false, t)
      if ds ≠ [] ∧ ds.all Char.isDigit then
        let n : Int := Nat.ofDigitChars 10 ds 0
        some (if negative then -n else n)
      else none

/-- A decimal without a sign: digits, a point or none, digits, an exponent or none; at least one digit
stands ahead of the exponent. -/
def readDecimal (s : List Char) : Option Decimal :=
  let (whole, s) := spanDigits s
  let (fraction, s) := match s with
    | '.' :: t => spanDigits t
    | t => ([], t)
  if whole = [] ∧ fraction = [] then none
  else (readExponent s).map fun e => ⟨whole, fraction, e⟩

/-- A number without a sign. -/
def readUnsigned (negative : Bool) (s : List Char) : Option Binary64 :=
  let word := s.map Char.toLower
  if word = "inf".toList ∨ word = "infinity".toList then some (.infinite negative)
  else if word = "nan".toList then some .nan
  else (readDecimal s).map (·.toBinary64 negative)

/-- The number that a text denotes. -/
def read? : List Char → Option Binary64
  | '-' :: s => readUnsigned true s
  | '+' :: s => readUnsigned false s
  | s => readUnsigned false s

end CoreBench.Binary64
