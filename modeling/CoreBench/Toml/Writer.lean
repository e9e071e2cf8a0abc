import CoreBench.Settings.Plain
import CoreBench.Text.Cut
import CoreBench.Text.Digits

/-!
Plain settings written as lines of a TOML document.

A text takes the first of these forms that can hold it: between double marks, between single marks, between
triple double marks, between triple single marks. If none can hold it as it is, it is written with escapes,
between triple double marks if it has a newline and between double ones if not. A text with a newline starts
on the line behind its opening marks.

Stated here:
  * `escaped_of_plain`: what needs no escape is written as it is.
-/

namespace CoreBench.Toml

open CoreBench.Settings CoreBench.Text

/-- The ways to write a text. -/
inductive Form where
  | basic
  | literal
  | triple
  | tripleLiteral
  deriving DecidableEq, Repr

/-- Whether a character has to be written by its number, tabs and newlines apart. -/
def isControl (c : Char) : Bool :=
  (c.toNat ≤ 0x1F && c ≠ '\t' && c ≠ '\n') || c.toNat = 0x7F

/-- Whether a text is on one line and has no controls. -/
def onLine (s : List Char) : Bool :=
  s.all fun c => !isControl c && c ≠ '\n'

/-- Whether a form can hold a text without an escape other than that of a tab. -/
def Form.holds (s : List Char) : Form → Bool
  | .basic => onLine s && !s.contains '"' && !s.contains '\\'
  | .literal => onLine s && !s.contains '\''
  | .triple => s.all (!isControl ·) && !s.contains '\\' && !occursIn ['"', '"', '"'] s
  | .tripleLiteral => s.all (!isControl ·) && !occursIn ['\'', '\'', '\''] s

/-- The form that a text is written in. -/
def Form.ofText (s : List Char) : Form :=
  (([.basic, .literal, .triple, .tripleLiteral] : List Form).find? (·.holds s)).getD
    (if s.contains '\n' then .triple else .basic)

/-- How a character other than a double mark is escaped between double marks, if it is. -/
def escape? (triple : Bool) (c : Char) : Option (List Char) :=
  if c = '\x08' then some ['\\', 'b']
  else if c = '\t' then some ['\\', 't']
  else if c = '\x0c' then some ['\\', 'f']
  else if c = '\r' then some ['\\', 'r']
  else if c = '\\' then some ['\\', '\\']
  else if c = '\n' then if triple then none else some ['\\', 'n']
  else if isControl c then
    some ['\\', 'u', '0', '0', (Nat.digitChar (c.toNat / 16)).toUpper,
      (Nat.digitChar (c.toNat % 16)).toUpper]
  else none

/-- A text with its escapes, behind `run` double marks in a row. Between triple marks up to two of them may
stand in a row. -/
def escaped (triple : Bool) (run : Nat) : List Char → List Char
  | [] => []
  | c :: s =>
    if c = '"' then
      if triple && run < 2 then '"' :: escaped triple (run + 1) s
      else '\\' :: '"' :: escaped triple 0 s
    else (escape? triple c).getD [c] ++ escaped triple 0 s

theorem escaped_of_plain {triple : Bool} {run : Nat} {s : List Char}
    (h : ∀ c ∈ s, c ≠ '"' ∧ escape? triple c = none) : escaped triple run s = s := by
  induction s generalizing run with
  | nil => rfl
  | cons c s ih =>
    obtain ⟨hq, he⟩ := h c (by simp)
    simp [escaped, hq, he, ih fun d hd => h d (by simp [hd])]

/-- The newline behind the opening marks of a text that has a newline. -/
def opening (s : List Char) : List Char :=
  if s.contains '\n' then ['\n'] else []

/-- A text in a form. -/
def Form.write (s : List Char) : Form → List Char
  | .basic => '"' :: escaped false 0 s ++ ['"']
  | .literal => '\'' :: s ++ ['\'']
  | .triple => ['"', '"', '"'] ++ opening s ++ escaped true 0 s ++ ['"', '"', '"']
  | .tripleLiteral => ['\'', '\'', '\''] ++ opening s ++ s ++ ['\'', '\'', '\'']

/-- The notation of a value; integers are of 64 bits. -/
def notation? : Plain → Option (List Char)
  | .bool b => some (if b then "true".toList else "false".toList)
  | .int i => if -(maxInt64 + 1) ≤ i ∧ i ≤ maxInt64 then some (numeral i) else none
  | .text s => some ((Form.ofText s.toList).write s.toList)

/-- The lines of a document with the named values, one a line. -/
def write? : Fields → Option (List Char)
  | [] => some []
  | (k, v) :: rest => do
    let s ← notation? v
    let more ← write? rest
    some (k.toList ++ ' ' :: '=' :: ' ' :: s ++ '\n' :: more)

end CoreBench.Toml
