import CoreBench.Number.Numeral
import CoreBench.Settings.Value
import CoreBench.Toml.Date
import CoreBench.Toml.Token

/-!
Numbers and dates of TOML documents. Both start with a digit, a sign, `inf` or `nan`, and may take several
tokens, since points, colons and plus signs are tokens of their own.
-/

namespace CoreBench.Toml

open CoreBench.Settings CoreBench.Text


/-- Whether a character is a digit in the given base. -/
def isRadixDigit (radix : Nat) (c : Char) : Bool :=
  match hexValue? c with
  | some d => d < radix
  | none => false

/-- Where a reader of digits is: nothing read yet; digits read, of which the first one is a zero or not;
or behind an underscore, which has to be followed by a digit. -/
inductive DigitState where
  | start
  | digits (zero : Bool)
  | gap (zero : Bool)
  deriving DecidableEq, Repr

/-- Digits with single underscores between them, up to the first character that cannot continue them.
Unless `zeros`, no digit may follow a zero at the start. -/
def digitRun (radix : Nat) (zeros : Bool) (state : DigitState) (acc : List Char) :
    List Char → Option (List Char × List Char)
  | [] => if (match state with | .digits _ => true | _ => false) then some (acc.reverse, []) else none
  | c :: s =>
    match state with
    | .start =>
      if isRadixDigit radix c then digitRun radix zeros (.digits (c = '0')) (c :: acc) s else none
    | .digits zero =>
      if isRadixDigit radix c then
        if zero && !zeros then none else digitRun radix zeros (.digits zero) (c :: acc) s
      else if c = '_' then digitRun radix zeros (.gap zero) acc s
      else some (acc.reverse, c :: s)
    | .gap zero =>
      if isRadixDigit radix c then
        if zero && !zeros then none else digitRun radix zeros (.digits zero) (c :: acc) s
      else none

/-- Digits behind a minus sign or none, and what follows them. -/
def signedRun (zeros : Bool) : List Char → Option (Bool × List Char × List Char)
  | '-' :: s => (digitRun 10 zeros .start [] s).map fun (ds, rest) => (true, ds, rest)
  | s => (digitRun 10 zeros .start [] s).map fun (ds, rest) => (false, ds, rest)

/-- A whole number in base ten, behind a minus sign or none, of 64 bits. -/
def decimalInteger (s : List Char) : Option Value :=
  match signedRun false s with
  | some (negative, ds, []) =>
    match readInt (maxInt64 + 1) maxInt64 (if negative then '-' :: ds else ds) with
    | .ok i => some (.int i)
    | .error _ => none
  | _ => none

/-- A whole number in another base, of 63 bits. -/
def radixInteger (radix : Nat) (s : List Char) : Option Value :=
  match digitRun radix true .start [] s with
  | some (ds, []) =>
    let n := ds.foldl (fun n c => radix * n + (hexValue? c).getD 0) 0
    if n ≤ maxInt64 then some (.int n) else none
  | _ => none

/-- The value of an exponent. -/
def exponentOf (negative : Bool) (ds : List Char) : Int :=
  let n : Int := Nat.ofDigitChars 10 ds 0
  if negative then -n else n

/-- An exponent: nothing; or `e` or `E` with digits behind it in the same word; or in the next, behind a
plus sign. -/
def exponent (s : List Char) (ts : List Token) : Option (Int × List Token) :=
  match s with
  | [] => some (0, ts)
  | c :: s =>
    if c ≠ 'e' ∧ c ≠ 'E' then none
    else if s = [] then
      let ts := match ts with
        | .plus :: rest => rest
        | ts => ts
      match ts with
      | .bare w :: rest =>
        match digitRun 10 true .start [] w with
        | some (ds, []) => some (exponentOf false ds, rest)
        | _ => none
      | _ => none
    else
      match signedRun true s with
      | some (negative, ds, []) => some (exponentOf negative ds, ts)
      | _ => none

/-- A number with a fraction, an exponent, or both; it has to be finite. -/
def float (s : List Char) (fraction : Option (List Char)) (ts : List Token) : Option (Value × List Token) := do
  let (negative, whole, rest) ← signedRun false s
  let (places, rest) ← match fraction with
    | none => some ([], rest)
    | some f => if rest = [] then digitRun 10 true .start [] f else none
  let (e, ts) ← exponent rest ts
  let x := Binary64.Decimal.toBinary64 ⟨whole, places, e⟩ negative
  if x.isFinite then some (.float x, ts) else none

/-- The number that a word starts. -/
def number (s : List Char) (ts : List Token) : Option (Value × List Token) :=
  match after? ['0', 'x'] s, after? ['0', 'o'] s, after? ['0', 'b'] s with
  | some s, _, _ => (radixInteger 16 s).map (·, ts)
  | _, some s, _ => (radixInteger 8 s).map (·, ts)
  | _, _, some s => (radixInteger 2 s).map (·, ts)
  | none, none, none =>
    if 'e' ∈ s ∨ 'E' ∈ s then float s none ts
    else
      match ts with
      | .period :: rest =>
        match rest with
        | .bare f :: rest => float s (some f) rest
        | _ => none
      | ts =>
        if s = "inf".toList then some (.float (.infinite false), ts)
        else if s = "-inf".toList then some (.float (.infinite true), ts)
        else if s = "nan".toList ∨ s = "-nan".toList then some (.float .nan, ts)
        else (decimalInteger s).map (·, ts)

/-! ## Dates -/

/-- Whether a word is the start of a date: it has a `T`, or a `-` behind its first character that is not
that of an exponent. -/
def startsDate (s : List Char) : Bool :=
  'T' ∈ s || 't' ∈ s
    || ('-' ∈ s.drop 1 && !occursIn ['e', '-'] s && !occursIn ['E', '-'] s)

/-- A word behind the given text, and the text with both. -/
def addWord (s : List Char) : List Token → Option (List Char × List Token)
  | .bare w :: ts => some (s ++ w, ts)
  | _ => none

/-- If a token comes next, it and a word behind it; `c` is the text of the token. -/
def addOptional (t : Token) (c : Char) (s : List Char) : List Token → Option (List Char × List Token)
  | u :: ts => if u = t then addWord (s ++ [c]) ts else some (s, u :: ts)
  | [] => some (s, [])

/-- The rest of a time behind its first colon: minutes, seconds, and perhaps a fraction and an offset. -/
def clockRest (s : List Char) (ts : List Token) : Option (List Char × List Token) := do
  let (s, ts) ← addWord s ts
  match ts with
  | .colon :: ts =>
    let (s, ts) ← addWord (s ++ [':']) ts
    let (s, ts) ← addOptional .period '.' s ts
    let (s, ts) ← addOptional .plus '+' s ts
    addOptional .colon ':' s ts
  | _ => none

/-- The text of a date that starts with the word `s`. A single blank with a word behind it belongs to the
date. -/
def dateText (s : List Char) (ts : List Token) : Option (List Char × List Token) :=
  let (s, ts) := match ts with
    | .blank [' '] :: .bare w :: ts => (s ++ ' ' :: w, ts)
    | ts => (s, ts)
  match ts with
  | .colon :: ts => clockRest (s ++ [':']) ts
  | ts => some (s, ts)

/-- The date with the given text, in its usual form. -/
def date (r : List Char × List Token) : Option (Value × List Token) :=
  (Date.read? r.1).map fun d => (.text (String.ofList d.text), r.2)

/-- The number or date that a word starts. -/
def numberOrDate (s : List Char) (ts : List Token) : Option (Value × List Token) :=
  if startsDate s then (dateText s ts).bind date
  else
    match ts with
    | .colon :: ts => (clockRest (s ++ [':']) ts).bind date
    | ts => number s ts

end CoreBench.Toml
