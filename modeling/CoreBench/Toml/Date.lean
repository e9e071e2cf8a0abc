import CoreBench.Text.Digits

/-!
Dates and times: a day, a time of day, or both, and behind both an offset from universal time. They are
read from their text and written in one form: `T` between day and time, seconds without zeros at the end
of the fraction, the offset with its sign.
-/

namespace CoreBench.Toml

open CoreBench.Text

/-- A day of a calendar, without regard to the lengths of months. -/
structure Day where
  year : Nat
  month : Nat
  day : Nat
  deriving DecidableEq, Repr

/-- A time of day. -/
structure Clock where
  hour : Nat
  minute : Nat
  second : Nat
  nanosecond : Nat
  deriving DecidableEq, Repr

/-- An offset from universal time; `universal` is no offset, written `Z`. -/
inductive Offset where
  | universal
  | shift (hours : Int) (minutes : Nat)
  deriving DecidableEq, Repr

/-- A day, a time, or both, perhaps with an offset. -/
structure Date where
  day : Option Day
  clock : Option Clock
  offset : Option Offset
  deriving DecidableEq, Repr

namespace Date

/-- Exactly `n` digits at the start of a text, as a number behind `value`, and what follows. -/
def number (value : Nat) : Nat → List Char → Option (Nat × List Char)
  | 0, s => some (value, s)
  | _ + 1, [] => none
  | n + 1, c :: s => (digitValue? c).bind fun d => number (10 * value + d) n s

/-- A given character at the start of a text, and what follows. -/
def expect (c : Char) : List Char → Option (List Char)
  | [] => none
  | x :: s => if x = c then some s else none

/-- A day at the start of a text. -/
def readDay (s : List Char) : Option (Day × List Char) := do
  let (year, s) ← number 0 4 s
  let s ← expect '-' s
  let (month, s) ← number 0 2 s
  let s ← expect '-' s
  let (day, s) ← number 0 2 s
  if 1 ≤ month ∧ month ≤ 12 ∧ 1 ≤ day ∧ day ≤ 31 then some (⟨year, month, day⟩, s) else none

/-- Nanoseconds from the digits of a fraction; digits behind the ninth are dropped. -/
def nanoseconds (ds : List Char) : Nat :=
  Nat.ofDigitChars 10 ((ds ++ List.replicate 9 '0').take 9) 0

/-- A fraction of a second at the start of a text, if there is a point. -/
def readFraction : List Char → Option (Nat × List Char)
  | '.' :: s =>
    let (ds, rest) := s.span Char.isDigit
    if ds = [] then none else some (nanoseconds ds, rest)
  | s => some (0, s)

/-- A time of day at the start of a text. -/
def readClock (s : List Char) : Option (Clock × List Char) := do
  let (hour, s) ← number 0 2 s
  let s ← expect ':' s
  let (minute, s) ← number 0 2 s
  let s ← expect ':' s
  let (second, s) ← number 0 2 s
  let (nanosecond, s) ← readFraction s
  if hour ≤ 24 ∧ minute ≤ 59 ∧ second ≤ 59 then some (⟨hour, minute, second, nanosecond⟩, s)
  else none

/-- An offset at the start of a text, if anything is left. -/
def readOffset : List Char → Option (Option Offset × List Char)
  | [] => some (none, [])
  | c :: s =>
    if c = 'Z' ∨ c = 'z' then some (some .universal, s)
    else if c = '+' ∨ c = '-' then do
      let (hours, s) ← number 0 2 s
      let s ← expect ':' s
      let (minutes, s) ← number 0 2 s
      some (some (.shift (if c = '-' then -(hours : Int) else hours) minutes), s)
    else none

/-- The date that a text spells: a time alone if a colon stands third, else a day, and a time behind it if
`T`, `t` or a blank follows. -/
def read? (s : List Char) : Option Date :=
  if s[2]? = some ':' then do
    let (clock, rest) ← readClock s
    if rest = [] then some ⟨none, some clock, none⟩ else none
  else do
    let (day, s) ← readDay s
    match s with
    | [] => some ⟨some day, none, none⟩
    | c :: s =>
      if c = 'T' ∨ c = 't' ∨ c = ' ' then do
        let (clock, s) ← readClock s
        let (offset, rest) ← readOffset s
        if rest = [] then some ⟨some day, some clock, offset⟩ else none
      else none

/-- A number with zeros ahead of it up to a width. -/
def padded (width n : Nat) : List Char :=
  let ds := digits n
  List.replicate (width - ds.length) '0' ++ ds

/-- The text of a day. -/
def dayText (d : Day) : List Char :=
  padded 4 d.year ++ '-' :: padded 2 d.month ++ '-' :: padded 2 d.day

/-- The text of a time of day. -/
def clockText (c : Clock) : List Char :=
  let whole := padded 2 c.hour ++ ':' :: padded 2 c.minute ++ ':' :: padded 2 c.second
  if c.nanosecond = 0 then whole
  else whole ++ '.' :: ((padded 9 c.nanosecond).reverse.dropWhile (· = '0')).reverse

/-- The text of an offset. -/
def offsetText : Offset → List Char
  | .universal => ['Z']
  | .shift hours minutes =>
    (if hours < 0 then '-' else '+') :: padded 2 hours.natAbs ++ ':' :: padded 2 minutes

/-- The text of a date. -/
def text (d : Date) : List Char :=
  (d.day.elim [] dayText)
    ++ (match d.day, d.clock with
      | some _, some c => 'T' :: clockText c
      | none, some c => clockText c
      | _, none => [])
    ++ d.offset.elim [] offsetText

end Date

end CoreBench.Toml
