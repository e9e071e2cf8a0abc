import CoreBench.Settings.Value
import CoreBench.Text.Cut
import CoreBench.Text.Digits

/-!
Key paths: the name of a setting read as a way into nested tables, `a.b` being the entry `b` of the table
`a` and `a[0]` an item of the list `a`. Names are made of ASCII letters and digits, blanks, `_` and `-`. A
name that is no path stands for itself.

Stated here:
  * `place_key_lookup`: a value placed at a name is found under that name, merged with what was there.
-/

namespace CoreBench.Settings

open CoreBench.Text

/-- One step of a path: into an entry of a table, or into an item of a list. -/
inductive PathStep where
  | key (name : String)
  | index (i : Int)
  deriving DecidableEq, Repr

/-- A way into a value, outermost step first. -/
abbrev KeyPath := List PathStep

namespace KeyPath

/-- Whether a name in a path may have a character. -/
def isNameChar (c : Char) : Bool :=
  c.isAlphanum || c = ' ' || c = '_' || c = '-'

/-- A name at the start of a text, and what follows it. -/
def readName (s : List Char) : Option (String × List Char) :=
  match s.span isNameChar with
  | ([], _) => none
  | (name, rest) => some (String.ofList name, rest)

/-- The text without the blanks and tabs at its start. -/
def skipBlanks (s : List Char) : List Char :=
  s.dropWhile fun c => c = ' ' || c = '\t'

/-- An index behind its opening bracket, and what follows the closing one: an integer of 64 bits, with
blanks around it allowed. -/
def readIndex (s : List Char) : Option (Int × List Char) :=
  let s := skipBlanks s
  let (sign, s) := match s with
    | '-' :: t => (['-'], t)
    | t => ([], t)
  let (ds, s) := s.span Char.isDigit
  match skipBlanks s with
  | ']' :: rest =>
    if ds = [] then none
    else
      match readInt (maxInt64 + 1) maxInt64 (sign ++ ds) with
      | .ok i => some (i, rest)
      | .error _ => none
  | _ => none

/-- The steps behind the first name; `fuel` bounds their number. -/
def readSteps : Nat → List Char → Option KeyPath
  | _, [] => some []
  | 0, _ => none
  | fuel + 1, '.' :: s =>
    match readName s with
    | none => none
    | some (name, rest) => (readSteps fuel rest).map (.key name :: ·)
  | fuel + 1, '[' :: s =>
    match readIndex s with
    | none => none
    | some (i, rest) => (readSteps fuel rest).map (.index i :: ·)
  | _, _ => none

/-- The path that a name spells. -/
def read? (s : List Char) : Option KeyPath :=
  match readName s with
  | none => none
  | some (name, rest) => (readSteps rest.length rest).map (.key name :: ·)

/-- The path of a setting: the one that its name spells, or its name as it is. -/
def ofName (name : String) : KeyPath :=
  (read? name.toList).getD [.key name]

end KeyPath

namespace Value

/-- What stands after `v` has been placed along a path from `old`. A step by name makes a table of what
is none. A step by index makes a list of what is none; the items of a list are no settings, so what would
be placed in one is dropped. -/
def place (v : Value) (old : Option Value) : KeyPath → Value
  | [] => merge old v
  | .key name :: path =>
    let es := (old.getD (.table [])).entries
    .table (es.set name (place v (es.lookup name) path))
  | .index _ :: _ => .list (old.getD (.list [])).items

theorem place_key_lookup (v : Value) (old : Option Value) (name : String) (path : KeyPath) :
    (place v old (.key name :: path)).entries.lookup name =
      some (place v ((old.getD (.table [])).entries.lookup name) path) := by
  simp [place, entries, lookup_set]

/-- A value with the named settings of a source placed in it, one after the other. -/
def overlay (base : Value) (source : Entries) : Value :=
  source.foldl (fun v e => place e.2 (some v) (KeyPath.ofName e.1)) base

/-- The settings of all sources in one table; later sources stand over earlier ones. -/
def ofSources (sources : List Entries) : Value :=
  sources.foldl overlay (.table [])

end Value

end CoreBench.Settings
