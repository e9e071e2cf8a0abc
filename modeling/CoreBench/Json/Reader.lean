import CoreBench.Json.Value
import CoreBench.Text.Digits

/-!
Reading JSON documents. A document is one value with blanks around it, and nothing else.
-/

namespace CoreBench.Json

open CoreBench.Text

/-- Blanks between the parts of a document. -/
def isSpace (c : Char) : Bool :=
  c = ' ' || c = '\n' || c = '\t' || c = '\r'

/-- The text without the blanks at its start. -/
def skipSpace (s : List Char) : List Char :=
  s.dropWhile isSpace

/-! ## Texts -/

/-- Whether a code point is the first half of a surrogate pair. -/
def isHighHalf (n : Nat) : Bool :=
  0xD800 ≤ n && n ≤ 0xDBFF

/-- Whether a code point is the second half of a surrogate pair. -/
def isLowHalf (n : Nat) : Bool :=
  0xDC00 ≤ n && n ≤ 0xDFFF

/-- The code points with one more that an escape spells, last one first: the second half of a pair is joined
with the first. -/
def addPoint (n : Nat) : Points → Points
  | h :: acc =>
    if isHighHalf h && isLowHalf n then (0x10000 + (h - 0xD800) * 0x400 + (n - 0xDC00)) :: acc
    else n :: h :: acc
  | [] => [n]

/-- The code point that a letter stands for behind a backslash. -/
def escapePoint? (c : Char) : Option Nat :=
  if c = '"' ∨ c = '\\' ∨ c = '/' then some c.toNat
  else if c = 'b' then some 0x08
  else if c = 'f' then some 0x0C
  else if c = 'n' then some 0x0A
  else if c = 'r' then some 0x0D
  else if c = 't' then some 0x09
  else none

/-- A text behind its first mark, and what follows it; `acc` are the code points so far, last one first. -/
def body (acc : Points) : List Char → Option (Points × List Char)
  | [] => none
  | c :: s =>
    if c = '"' then some (acc.reverse, s)
    else if c = '\\' then
      match s with
      | 'u' :: x1 :: x2 :: x3 :: x4 :: rest =>
        match hexNumber? 0 [x1, x2, x3, x4] with
        | some n => body (addPoint n acc) rest
        | none => none
      | e :: rest =>
        match escapePoint? e with
        | some n => body (n :: acc) rest
        | none => none
      | [] => none
    else if c.toNat < 0x20 then none
    else body (c.toNat :: acc) s
termination_by structural s => s

/-! ## Numbers -/

/-- Digits at the start of a text, at least one, and what follows them. -/
def someDigits (s : List Char) : Option (List Char × List Char) :=
  match s.span Char.isDigit with
  | ([], _) => none
  | r => some r

/-- The digits of an integer, of which only a single one may start with 0, and what follows them. -/
def wholePart (s : List Char) : Option (List Char × List Char) :=
  match someDigits s with
  | some ('0' :: _ :: _, _) => none
  | r => r

/-- A point and the digits behind it, if there is a point, and what follows. -/
def fractionPart : List Char → Option (List Char × List Char)
  | '.' :: s => (someDigits s).map fun (ds, rest) => ('.' :: ds, rest)
  | s => some ([], s)

/-- An exponent, if there is one, and what follows. -/
def exponentPart : List Char → Option (List Char × List Char)
  | [] => some ([], [])
  | c :: s =>
    if c = 'e' ∨ c = 'E' then
      let (sign, t) := match s with
        | '+' :: t => (['+'], t)
        | '-' :: t => (['-'], t)
        | t => ([], t)
      (someDigits t).map fun (ds, rest) => (c :: sign ++ ds, rest)
    else some ([], c :: s)

/-- A number at the start of a text, and what follows it. A negative zero is no integer. -/
def number (s : List Char) : Option (Json × List Char) := do
  let (negative, s) := match s with
    | '-' :: t => (true, t)
    | t => (false, t)
  let (whole, s) ← wholePart s
  let (fraction, s) ← fractionPart s
  let (exponent, s) ← exponentPart s
  let sign := if negative then ['-'] else []
  let n := Nat.ofDigitChars 10 whole 0
  if fraction = [] ∧ exponent = [] ∧ ¬ (negative = true ∧ n = 0) then
    some (.int (if negative then -(n : Int) else n), s)
  else some (.real (sign ++ whole ++ fraction ++ exponent), s)

/-! ## Values -/

/-- A given text at the start, and what follows it. -/
def word (w : List Char) (v : Json) (s : List Char) : Option (Json × List Char) :=
  if w.isPrefixOf s then some (v, s.drop w.length) else none

/-- A name and the colon behind it, and what follows. -/
def memberName (s : List Char) : Option (Points × List Char) :=
  match skipSpace s with
  | '"' :: s => do
    let (k, s) ← body [] s
    match skipSpace s with
    | ':' :: s => some (k, s)
    | _ => none
  | _ => none

mutual

/-- A value at the start of a text; `fuel` bounds the number of values in it. -/
def value : Nat → List Char → Option (Json × List Char)
  | 0, _ => none
  | fuel + 1, s =>
    match skipSpace s with
    | [] => none
    | c :: s =>
      if c = '"' then (body [] s).map fun (ps, s) => (.text ps, s)
      else if c = '[' then
        match skipSpace s with
        | ']' :: s => some (.list [], s)
        | s => (items fuel s).map fun (vs, s) => (.list vs, s)
      else if c = '\x7b' then
        match skipSpace s with
        | '\x7d' :: s => some (.object [], s)
        | s => (objectMembers fuel s).map fun (ms, s) => (.object ms, s)
      else if c = 'n' then word ['u', 'l', 'l'] .null s
      else if c = 't' then word ['r', 'u', 'e'] (.bool true) s
      else if c = 'f' then word ['a', 'l', 's', 'e'] (.bool false) s
      else number (c :: s)

/-- The items of a list up to its closing bracket, at least one. -/
def items : Nat → List Char → Option (List Json × List Char)
  | 0, _ => none
  | fuel + 1, s => do
    let (v, s) ← value fuel s
    match skipSpace s with
    | ']' :: s => some ([v], s)
    | ',' :: s =>
      let (vs, s) ← items fuel s
      some (v :: vs, s)
    | _ => none

/-- The members of an object up to its closing brace, at least one. -/
def objectMembers : Nat → List Char → Option (List (Points × Json) × List Char)
  | 0, _ => none
  | fuel + 1, s => do
    let (k, s) ← memberName s
    let (v, s) ← value fuel s
    match skipSpace s with
    | '\x7d' :: s => some ([(k, v)], s)
    | ',' :: s =>
      let (ms, s) ← objectMembers fuel s
      some ((k, v) :: ms, s)
    | _ => none

end

/-- The value that a document holds. -/
def read (s : List Char) : Option Json :=
  match value (2 * s.length + 2) s with
  | some (v, rest) => if skipSpace rest = [] then some v else none
  | none => none

end CoreBench.Json
