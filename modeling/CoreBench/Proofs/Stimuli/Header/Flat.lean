import CoreBench.Proofs.Stimuli.Header.Writing
import CoreBench.Proofs.Stimuli.Rows

/-!
Arrays as one loop over all cells would write them. An array is written row by row, and its specification knows no rows:
it counts the cells, and a line is broken ahead of each position that the size divides. Both come to the same text since
every row has as many elements as there are rows.

What is proved:
  * `join_zipIdx_rows`: rows of one length have a line each exactly if lines are broken at the multiples of that length;
  * `array_flat`: the text of an array, and what its rows are.
-/

namespace CoreBench.Stimuli.Header

open CoreBench.Files CoreBench.Text

/-- A cell with its position, as an array shows it: on a new line if `n` divides the position. -/
def cellText (n : Nat) (cell : Int32 × Nat) : String :=
  (if n ∣ cell.2 then "\n\t" else "") ++ (toString cell.1.toInt ++ ",")

/-- The text of an array, by the positions of the cells. -/
def flatArray (name : String) (m : Matrix) : String :=
  "const int " ++ name ++ "[] = \x7b" ++ String.join (m.cells.toList.zipIdx.map (cellText m.size)) ++ "\n\x7d;\n\n"

/-- Numerals are those of the standard notation. -/
theorem intText_eq (i : Int) : intText i = toString i := by
  cases i with
  | ofNat n => rfl
  | negSucc n =>
    show String.ofList ('-' :: digits (n + 1)) = "-" ++ String.ofList (digits (n + 1))
    rw [String.ofList_cons]
    rfl

/-- Between two multiples of `n` no line is broken. -/
theorem map_cellText_of_lt {n k : Nat} {row : List Int32} (hk : 0 < k) (hrow : k + row.length ≤ n) (j : Nat) :
    (row.zipIdx (j * n + k)).map (cellText n) = row.map fun v => intText v.toInt ++ "," := by
  induction row generalizing k with
  | nil => rfl
  | cons v row ih =>
    rw [List.length_cons] at hrow
    have hnot : ¬ n ∣ j * n + k := by
      rw [Nat.dvd_add_right (Nat.dvd_mul_left n j)]
      exact Nat.not_dvd_of_pos_of_lt hk (by omega)
    rw [List.zipIdx_cons, List.map_cons, List.map_cons, cellText, if_neg hnot, Nat.add_assoc,
      ih (Nat.succ_pos k) (by omega), intText_eq, String.empty_append]

/-- A row that starts at a multiple of its length has a line of its own. -/
theorem join_zipIdx_row {n : Nat} (hn : 0 < n) {row : List Int32} (hrow : row.length = n) (j : Nat) :
    String.join ((row.zipIdx (j * n)).map (cellText n)) = String.join (rowPieces row) := by
  cases row with
  | nil => simp at hrow; omega
  | cons v row =>
    rw [List.length_cons] at hrow
    have hlength : 1 + row.length ≤ n := by omega
    have hrest := map_cellText_of_lt Nat.one_pos hlength j
    rw [List.zipIdx_cons, List.map_cons, hrest, cellText, if_pos (Nat.dvd_mul_left n j), ← intText_eq, rowPieces,
      List.map_cons]
    simp only [String.join_cons, String.append_assoc]

theorem join_zipIdx_rows {n : Nat} {rows : List (List Int32)} (hn : rows ≠ [] → 0 < n)
    (h : ∀ row ∈ rows, row.length = n) (j : Nat) :
    String.join ((rows.flatten.zipIdx (j * n)).map (cellText n)) = String.join (rows.flatMap rowPieces) := by
  induction rows generalizing j with
  | nil => rfl
  | cons row rows ih =>
    have hpos := hn (List.cons_ne_nil row rows)
    obtain ⟨hrow, hrows⟩ := List.forall_mem_cons.mp h
    rw [List.flatten_cons, List.zipIdx_append, List.map_append, String.join_append, join_zipIdx_row hpos hrow, hrow,
      ← Nat.succ_mul, ih (fun _ => hpos) hrows, List.flatMap_cons, String.join_append]

theorem join_arrayPieces (name : String) (m : Matrix) : String.join (arrayPieces name m) = flatArray name m := by
  have hpos : m.rows ≠ [] → 0 < m.size := by
    intro h
    rw [← m.rows_length]
    exact List.length_pos_iff.mpr h
  have hcells := join_zipIdx_rows hpos (fun _ => Matrix.length_of_mem_rows) 0
  rw [Nat.zero_mul, m.rows_flatten] at hcells
  rw [arrayPieces, String.join_append, String.join_cons, ← hcells, flatArray, arrayOpening]
  simp only [String.join_cons, String.join_nil, String.append_empty]

/-- **Arrays are laid out by positions.** The text that is written for an array, in whatever portions, is its opening,
then each cell in order as a decimal numeral and a comma, on a new line exactly if the size divides its position, and
then its end. The rows are what cutting the cells in order gives: as many as the size says, of as many elements each, and
with all cells in order; nothing else than the rows is like that, and with size 0 there are none. -/
theorem array_flat (name : String) (m : Matrix) :
    (∀ portion, Writing.Writes (arrayTo portion name m) ⟨⟩ (octets (flatArray name m))) ∧
    String.join (arrayPieces name m) = flatArray name m ∧
    m.rows = Matrix.cutEvery (max m.size 1) m.cells.toList ∧
    ∀ rs, rs = m.rows ↔ rs.map List.length = List.replicate m.size m.size ∧ rs.flatten = m.cells.toList := by
  have htext := join_arrayPieces name m
  refine ⟨fun portion => ?_, htext, m.rows_eq_cutEvery, m.eq_rows_iff⟩
  rw [← htext, octets_join]
  exact arrayTo_writes portion name m

end CoreBench.Stimuli.Header
