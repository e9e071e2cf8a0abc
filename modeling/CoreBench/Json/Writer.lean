import CoreBench.Json.Value
import CoreBench.Text.Digits

/-!
Writing JSON documents without blanks. In texts, marks, backslashes and controls are escaped, and so are
halves of surrogate pairs; everything else stands for itself.
-/

namespace CoreBench.Json

open CoreBench.Text

/-- An escape by number, with four digits. -/
def numberEscape (n : Nat) : List Char :=
  let ds := hexDigits n
  '\\' :: 'u' :: List.replicate (4 - ds.length) '0' ++ ds

/-- How a code point is written in a text. -/
def writePoint (n : Nat) : List Char :=
  if n = 0x22 then ['\\', '"']
  else if n = 0x5C then ['\\', '\\']
  else if n = 0x08 then ['\\', 'b']
  else if n = 0x09 then ['\\', 't']
  else if n = 0x0A then ['\\', 'n']
  else if n = 0x0C then ['\\', 'f']
  else if n = 0x0D then ['\\', 'r']
  else if n < 0x20 ∨ ¬ n.isValidChar then numberEscape n
  else [Char.ofNat n]

/-- A text between its marks. -/
def writeText (ps : Points) : List Char :=
  '"' :: ps.flatMap writePoint ++ ['"']

mutual

/-- A value ahead of what follows it. -/
def writeOnto (rest : List Char) : Json → List Char
  | .null => 'n' :: 'u' :: 'l' :: 'l' :: rest
  | .bool true => 't' :: 'r' :: 'u' :: 'e' :: rest
  | .bool false => 'f' :: 'a' :: 'l' :: 's' :: 'e' :: rest
  | .int i => numeral i ++ rest
  | .real literal => literal ++ rest
  | .text ps => writeText ps ++ rest
  | .list [] => '[' :: ']' :: rest
  | .list (v :: vs) => '[' :: writeOnto (writeItems (']' :: rest) vs) v
  | .object [] => '\x7b' :: '\x7d' :: rest
  | .object (m :: ms) => '\x7b' :: writeMember (writeMembers ('\x7d' :: rest) ms) m
termination_by structural v => v

/-- The items of a list behind its first one, ahead of what follows them. -/
def writeItems (rest : List Char) : List Json → List Char
  | [] => rest
  | v :: vs => ',' :: writeOnto (writeItems rest vs) v
termination_by structural vs => vs

/-- A member of an object ahead of what follows it. -/
def writeMember (rest : List Char) : Points × Json → List Char
  | (k, v) => writeText k ++ ':' :: writeOnto rest v
termination_by structural m => m

/-- The members of an object behind its first one, ahead of what follows them. -/
def writeMembers (rest : List Char) : List (Points × Json) → List Char
  | [] => rest
  | m :: ms => ',' :: writeMember (writeMembers rest ms) m
termination_by structural ms => ms

end

/-- The document that holds a value. -/
def write (v : Json) : List Char :=
  writeOnto [] v

end CoreBench.Json
