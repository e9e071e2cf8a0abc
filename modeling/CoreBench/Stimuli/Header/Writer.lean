import CoreBench.Files.Sink
import CoreBench.Stimuli.Case

/-!
Headers that hold a case for the program under test: its three matrices as arrays, each row on a line of its
own, then the size, then the working buffers, which are placed in a section of the linker's choice.

A header is written in pieces, since a writer may fail between any two octets.
-/

namespace CoreBench.Stimuli

open CoreBench.Files CoreBench.Text

namespace Header

/-- The section of the working buffers. -/
def defaultSection : String := ".heapsram"

/-- The name of the first operand. -/
def operandA : String := "m_a"

/-- The name of the second operand. -/
def operandB : String := "m_b"

/-- The name of the product. -/
def product : String := "m_exp"

/-- The working buffers of the program under test. -/
def workBuffers : List String := ["g_mA", "g_mB", "g_mC", "g_mB_tmp"]

/-- The line that opens an array. -/
def arrayOpening (name : String) : String :=
  "const int " ++ name ++ "[] = \x7b"

/-- The line that gives the size. -/
def sizeLine (size : Nat) : String :=
  "#define SIZE " ++ toString size ++ "\n"

/-- What stands ahead of the section of a buffer. -/
def bufferOpening : String := "__attribute__ ((section(\""

/-- What stands between the section and the name of a buffer. -/
def bufferMiddle : String := "\"))) int "

/-- What stands behind the name of a buffer. -/
def bufferClosing : String := "[SIZE][SIZE];"

/-- The line that declares a buffer. -/
def bufferLine (sect name : String) : String :=
  bufferOpening ++ sect ++ bufferMiddle ++ name ++ bufferClosing ++ "\n"

/-- The pieces of one row of an array. -/
def rowPieces (row : List Int32) : List String :=
  "\n\t" :: row.map fun v => intText v.toInt ++ ","

/-- The pieces of an array. -/
def arrayPieces (name : String) (m : Matrix) : List String :=
  arrayOpening name :: m.rows.flatMap rowPieces ++ ["\n\x7d;\n\n"]

end Header

namespace Case

/-- The pieces of the header of a case, with the buffers in a section. -/
def headerPieces (c : Case) (sect : String) : List String :=
  Header.arrayPieces Header.operandA c.a ++ Header.arrayPieces Header.operandB c.b
    ++ Header.arrayPieces Header.product c.expected
    ++ Header.sizeLine c.params.size :: Header.workBuffers.map (Header.bufferLine sect)

/-- The header of a case, with the buffers in a section. -/
def header (c : Case) (sect : String) : String :=
  String.join (c.headerPieces sect)

/-- What a writer with room for `room` octets takes of a header, and its fault if that is not all. -/
def writeHeader (c : Case) (sect : String) (room : Nat) : Octets × Option Fault :=
  writeUpTo room ((c.headerPieces sect).map octets)

end Case

end CoreBench.Stimuli
