import CoreBench.Stimuli.Params

/-!
Square matrices of integers of 32 bits, and their product. Products are computed exactly; an element that does
not fit back into 32 bits is an error, and the first such element in the order of rows is reported.

Stated here:
  * `collect_size`: cells are collected to the number asked for;
  * `rows_length`: a matrix has as many rows as its size says.
-/

namespace CoreBench.Stimuli

/-- A square matrix, its cells row by row. -/
structure Matrix where
  size : Nat
  cells : Array Int32
  square : cells.size = size * size
  deriving DecidableEq, Repr

namespace Matrix

/-- The matrix with the given cells, row by row. -/
def ofCells? (size : Nat) (cells : Array Int32) : Except StimuliError Matrix :=
  match cellCount? size with
  | none => .error (.dimensionOverflow size)
  | some n =>
    if h : cells.size = size * size then .ok ⟨size, cells, h⟩
    else .error (.invalidLength size n cells.size)

/-- The cell of a row and a column, if the cells go that far. -/
def get? (m : Matrix) (row col : Nat) : Option Int32 :=
  m.cells[row * m.size + col]?

/-- The element of a row and a column, 0 beyond the cells. -/
def entry (m : Matrix) (row col : Nat) : Int :=
  (m.cells.getD (row * m.size + col) 0).toInt

/-- The cells of one row. -/
def row (m : Matrix) (i : Nat) : List Int32 :=
  (m.cells.extract (i * m.size) (i * m.size + m.size)).toList

/-- The rows, from top to bottom. -/
def rows (m : Matrix) : List (List Int32) :=
  (List.range m.size).map m.row

theorem rows_length (m : Matrix) : m.rows.length = m.size := by
  simp [rows]

/-- The sum over the first `n` places of the products along a row and a column. -/
def dot (a b : Matrix) (row col : Nat) : Nat → Int
  | 0 => 0
  | k + 1 => dot a b row col k + a.entry row k * b.entry k col

/-- Cells collected behind those in `acc`, `f` giving each by its position, up to its first error. -/
def collect {ε : Type} (f : Nat → Except ε Int32) (acc : Array Int32) : Nat → Except ε (Array Int32)
  | 0 => .ok acc
  | n + 1 =>
    match f acc.size with
    | .error e => .error e
    | .ok c => collect f (acc.push c) n

theorem collect_size {ε : Type} {f : Nat → Except ε Int32} {acc cs : Array Int32} {n : Nat}
    (h : collect f acc n = .ok cs) : cs.size = acc.size + n := by
  induction n generalizing acc with
  | zero => simp only [collect, Except.ok.injEq] at h; simp [← h]
  | succ n ih =>
    simp only [collect] at h
    split at h
    · simp at h
    · have := ih h
      simp only [Array.size_push] at this
      omega

/-- An integer brought to 32 bits, as the element of a row and a column. -/
def narrow (row col : Nat) (v : Int) : Except StimuliError Int32 :=
  if -(maxInt32 + 1) ≤ v ∧ v ≤ maxInt32 then .ok (Int32.ofInt v) else .error (.overflow row col v)

/-- An element of the product of two matrices, by its position among the cells. -/
def productCell (a b : Matrix) (i : Nat) : Except StimuliError Int32 :=
  narrow (i / a.size) (i % a.size) (dot a b (i / a.size) (i % a.size) a.size)

/-- The product of two matrices. -/
def multiply (a b : Matrix) : Except StimuliError Matrix :=
  if a.size = b.size then
    match h : collect (productCell a b) #[] (a.size * a.size) with
    | .error e => .error e
    | .ok cells => .ok ⟨a.size, cells, by simpa using collect_size h⟩
  else .error (.dimensionMismatch a.size b.size)

end Matrix

end CoreBench.Stimuli
