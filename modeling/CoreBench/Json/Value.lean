/-!
Values of JSON documents, as they are written: an integer is told from a number with a fraction or an
exponent, an object may name a member twice, and a text is the sequence of code points that it spells, among
which there may be halves of surrogate pairs.

Stated here:
  * `text?_points`: the code points of a text spell that text.
-/

namespace CoreBench

/-- The code points that a text of a document spells. -/
abbrev Points := List Nat

/-- A value of a document. `real` is a number that is not written as an integer. -/
inductive Json where
  | null
  | bool (b : Bool)
  | int (i : Int)
  | real (literal : List Char)
  | text (points : Points)
  | list (items : List Json)
  | object (members : List (Points × Json))
  deriving Repr

namespace Json

/-- The code points of a text. -/
def points (s : String) : Points :=
  s.toList.map Char.toNat

/-- The characters with the given code points, if all of them are. -/
def chars? : Points → Option (List Char)
  | [] => some []
  | n :: ps => if n.isValidChar then (chars? ps).map (Char.ofNat n :: ·) else none

/-- The text with the given code points, if there is one. -/
def text? (ps : Points) : Option String :=
  (chars? ps).map String.ofList

theorem chars?_map (s : List Char) : chars? (s.map Char.toNat) = some s := by
  induction s with
  | nil => rfl
  | cons c s ih =>
    have h : c.toNat.isValidChar := c.valid
    simp [chars?, h, ih]

theorem text?_points (s : String) : text? (points s) = some s := by
  simp [text?, points, chars?_map]

/-- A text as a value. -/
def ofString (s : String) : Json :=
  .text (points s)

/-- A natural number as a value. -/
def ofNat (n : Nat) : Json :=
  .int n

/-- An object with the given members. -/
def ofMembers (ms : List (String × Json)) : Json :=
  .object (ms.map fun m => (points m.1, m.2))

/-- The text that a value is. -/
def string? : Json → Option String
  | .text ps => text? ps
  | _ => none

/-- The integer that a value is. -/
def int? : Json → Option Int
  | .int i => some i
  | _ => none

/-- The natural number up to `max` that a value is. -/
def nat? (max : Nat) : Json → Option Nat
  | .int (.ofNat n) => if n ≤ max then some n else none
  | _ => none

/-- The truth value that a value is. -/
def bool? : Json → Option Bool
  | .bool b => some b
  | _ => none

/-- The items of a list. -/
def items? : Json → Option (List Json)
  | .list vs => some vs
  | _ => none

/-- The members of an object. -/
def members : Json → List (Points × Json)
  | .object ms => ms
  | _ => []

/-- The first member of a name in an object. -/
def get? (v : Json) (name : String) : Option Json :=
  v.members.lookup (points name)

end Json

end CoreBench
