import CoreBench.Files.Access
import CoreBench.Text.Digits
import CoreBench.Text.Quoted

/-!
What can go wrong with the stimuli of a multiplication test, and how it is worded.
-/

namespace CoreBench.Stimuli

open CoreBench.Files CoreBench.Text

/-- The largest size of a matrix. -/
def maxSize : Nat := 1024

/-- Why a text is no header. -/
inductive HeaderFault where
  | missingSize
  | badSize (text : String) (fault : NumeralFault)
  | sizeOutside (size : Nat)
  | missingArray (name : String)
  | unterminatedArray (name : String)
  | badElement (item name : String) (fault : NumeralFault)
  | badBuffer (line : String)
  deriving DecidableEq, Repr

/-- The wording of a malformed header. -/
def HeaderFault.message : HeaderFault → String
  | .missingSize => "missing #define SIZE"
  | .badSize text fault => "invalid SIZE " ++ quoted text ++ ": " ++ fault.message
  | .sizeOutside size => "SIZE " ++ toString size ++ " outside 1..=" ++ toString maxSize
  | .missingArray name => "missing array " ++ name
  | .unterminatedArray name => "unterminated array " ++ name
  | .badElement item name fault =>
    "invalid element " ++ quoted item ++ " in " ++ name ++ ": " ++ fault.message
  | .badBuffer line => "malformed buffer declaration " ++ quoted line

/-- Why stimuli cannot be made, written, read or confirmed. `starved` is a source of random words that gave
none to use. -/
inductive StimuliError where
  | invalidSize
  | sizeTooLarge (size max : Nat)
  | dimensionOverflow (size : Nat)
  | invalidRange (size : Nat)
  | rangeOverflow (size range worstCase : Nat)
  | overflow (row col : Nat) (value : Int)
  | dimensionMismatch (left right : Nat)
  | invalidLength (size expected actual : Nat)
  | parse (fault : HeaderFault)
  | mismatch (row col : Nat) (expected actual : Int32)
  | roundTrip (path : String)
  | starved
  | file (e : FileError)
  deriving DecidableEq, Repr

/-- A size twice, as in the name of a square. -/
def squareText (size : Nat) : String :=
  toString size ++ "x" ++ toString size

/-- A cell by its row and column. -/
def cellText (row col : Nat) : String :=
  "[" ++ toString row ++ "][" ++ toString col ++ "]"

/-- The wording of an error. -/
def StimuliError.message : StimuliError → String
  | .invalidSize => "matrix size must be positive"
  | .sizeTooLarge size max =>
    "matrix size " ++ toString size ++ " exceeds the maximum of " ++ toString max
  | .dimensionOverflow size => "a " ++ squareText size ++ " matrix does not fit in memory"
  | .invalidRange size => "element range must be positive (size " ++ toString size ++ ")"
  | .rangeOverflow size range worstCase =>
    "size " ++ toString size ++ " with range " ++ toString range
      ++ " can overflow a 32-bit int: worst-case dot product is " ++ toString worstCase
  | .overflow row col value =>
    "product overflows a 32-bit int at " ++ cellText row col ++ ": " ++ intText value
  | .dimensionMismatch left right =>
    "matrix sizes differ: " ++ toString left ++ " vs " ++ toString right
  | .invalidLength size expected actual =>
    "a " ++ squareText size ++ " matrix needs " ++ toString expected ++ " elements, got "
      ++ toString actual
  | .parse fault => "malformed stimuli header: " ++ fault.message
  | .mismatch row col expected actual =>
    "expected product differs at " ++ cellText row col ++ ": header has "
      ++ intText expected.toInt ++ ", m_a x m_b gives " ++ intText actual.toInt
  | .roundTrip path => "header " ++ quoted path ++ " does not reproduce the generated matrices"
  | .starved => "the source of random words gave none to use"
  | .file e => e.message

/-- An error and what caused it, the cause last. -/
def StimuliError.causes : StimuliError → List String
  | .file e => [e.message, e.fault.message]
  | e => [e.message]

end CoreBench.Stimuli
