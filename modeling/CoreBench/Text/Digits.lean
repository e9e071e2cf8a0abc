/-!
Numbers in digits: the bounds that words put on them, decimal numerals, and hexadecimal digits.

A numeral is read within bounds, as ASCII digits behind at most one sign. Reading stops at the first thing
that is wrong, in reading order: a character that is no digit, or the digit that takes the value out of
bounds. Hexadecimal digits are read in either case and written in lower case.

Stated here:
  * `readDigits_le`: what is read is within the bound;
  * `toList_toString`: the digits are those of the standard notation.
-/

namespace CoreBench

/-- The largest number of 32 bits without a sign. -/
def max32 : Nat := 0xFFFFFFFF

/-- The largest number of 64 bits without a sign. -/
def max64 : Nat := 0xFFFFFFFFFFFFFFFF

/-- The largest integer of 32 bits. The smallest one is one further from 0. -/
def maxInt32 : Nat := 0x7FFFFFFF

/-- The largest integer of 64 bits. The smallest one is one further from 0. -/
def maxInt64 : Nat := 0x7FFFFFFFFFFFFFFF

namespace Text

/-! ## Decimal numerals -/

/-- Why a numeral is refused. -/
inductive NumeralFault where
  | empty
  | invalidDigit
  | tooLarge
  | tooSmall
  deriving DecidableEq, Repr

/-- The wording of a refusal. -/
def NumeralFault.message : NumeralFault → String
  | .empty => "cannot parse integer from empty string"
  | .invalidDigit => "invalid digit found in string"
  | .tooLarge => "number too large to fit in target type"
  | .tooSmall => "number too small to fit in target type"

/-- The value of an ASCII digit. -/
def digitValue? (c : Char) : Option Nat :=
  if c.isDigit then some (c.toNat - '0'.toNat) else none

/-- Digits read behind those worth `value`, up to `bound`; `past` is the fault of exceeding it. -/
def readDigits (bound : Nat) (past : NumeralFault) (value : Nat) :
    List Char → Except NumeralFault Nat
  | [] => .ok value
  | c :: s =>
    match digitValue? c with
    | none => .error .invalidDigit
    | some d =>
      if 10 * value + d ≤ bound then readDigits bound past (10 * value + d) s else .error past

theorem readDigits_le {bound value n : Nat} {past : NumeralFault} {s : List Char}
    (hv : value ≤ bound) (h : readDigits bound past value s = .ok n) : n ≤ bound := by
  induction s generalizing value with
  | nil => simp only [readDigits, Except.ok.injEq] at h; omega
  | cons c s ih =>
    simp only [readDigits] at h
    split at h
    · simp at h
    · split at h
      · next hle => exact ih hle h
      · simp at h

/-- A natural number up to `bound`, behind at most one `+`. -/
def readNat (bound : Nat) : List Char → Except NumeralFault Nat
  | [] => .error .empty
  | '+' :: [] => .error .invalidDigit
  | '+' :: s => readDigits bound .tooLarge 0 s
  | s => readDigits bound .tooLarge 0 s

/-- An integer from `-below` to `above`, behind at most one sign. -/
def readInt (below above : Nat) : List Char → Except NumeralFault Int
  | '-' :: [] => .error .invalidDigit
  | '-' :: s => (readDigits below .tooSmall 0 s).map fun n => -(n : Int)
  | s => (readNat above s).map Int.ofNat

/-- The digits of a natural number, most significant first. -/
def digits (n : Nat) : List Char :=
  Nat.toDigits 10 n

theorem toList_toString (n : Nat) : (toString n).toList = digits n :=
  Nat.toList_repr

/-- The numeral of an integer: a `-` ahead of the digits of a negative one. -/
def numeral : Int → List Char
  | .ofNat n => digits n
  | .negSucc n => '-' :: digits (n + 1)

/-- The numeral of an integer as a string. -/
def intText (i : Int) : String :=
  String.ofList (numeral i)

/-! ## Hexadecimal digits -/

/-- The digits of a number in base sixteen, in lower case. -/
def hexDigits (n : Nat) : List Char :=
  Nat.toDigits 16 n

/-- The value of a digit in base sixteen. -/
def hexValue? (c : Char) : Option Nat :=
  if '0' ≤ c ∧ c ≤ '9' then some (c.toNat - '0'.toNat)
  else if 'a' ≤ c ∧ c ≤ 'f' then some (c.toNat - 'a'.toNat + 10)
  else if 'A' ≤ c ∧ c ≤ 'F' then some (c.toNat - 'A'.toNat + 10)
  else none

/-- The value of digits in base sixteen behind those worth `n`. -/
def hexNumber? (n : Nat) : List Char → Option Nat
  | [] => some n
  | c :: s => (hexValue? c).bind fun d => hexNumber? (16 * n + d) s

end Text

end CoreBench
