import CoreBench.Settings.Value
import CoreBench.Number.Shortest
import CoreBench.Text.Digits

/-!
Values brought to the type that a setting has. Conversions are generous: a switch may be given as a word or
a number, a number as a word, a switch or a fraction, and a text as any plain value.
-/

namespace CoreBench.Settings.Value

open CoreBench.Text

/-- The words for `true`. -/
def yesWords : List String := ["true", "on", "yes"]

/-- The words for `false`. -/
def noWords : List String := ["false", "off", "no"]

/-- A text in lower case. Only ASCII letters are changed: no other character becomes one of the letters
that the words here and the names of settings are made of. -/
def lower (s : String) : String :=
  String.ofList (s.toList.map Char.toLower)

/-- A number of 64 bits without a sign: an integer that is not negative, a switch as 0 or 1, a fraction
rounded and brought into the bounds, a word for a switch, or a numeral. -/
def toNat64? : Value → Option Nat
  | .int (.ofNat n) => if n ≤ max64 then some n else none
  | .int (.negSucc _) => none
  | .bool b => some (if b then 1 else 0)
  | .float x => some x.toNat64
  | .text s =>
    if lower s ∈ yesWords then some 1
    else if lower s ∈ noWords then some 0
    else (readNat max64 s.toList).toOption
  | .list _ => none
  | .table _ => none

/-- A number of 32 bits without a sign: the lower half of a number of 64 bits. -/
def toNat32? (v : Value) : Option Nat :=
  v.toNat64?.map (· % (max32 + 1))

/-- A switch: a number other than 0, or a word. -/
def toBool? : Value → Option Bool
  | .bool b => some b
  | .int i => some (i ≠ 0)
  | .float x => some (!x.isZero)
  | .text s =>
    if lower s ∈ "1" :: yesWords then some true
    else if lower s ∈ "0" :: noWords then some false
    else none
  | .list _ => none
  | .table _ => none

/-- A text: any plain value in its usual notation. -/
def toText? : Value → Option String
  | .text s => some s
  | .bool b => some (if b then "true" else "false")
  | .int i => some (intText i)
  | .float x => some x.text
  | .list _ => none
  | .table _ => none

/-- One of several named choices: its name, or a table with no entry but one of that name. -/
def toChoice? {α : Type} (choices : List (String × α)) : Value → Option α
  | .text s => choices.lookup s
  | .table [(k, _)] => choices.lookup k
  | _ => none

end CoreBench.Settings.Value
