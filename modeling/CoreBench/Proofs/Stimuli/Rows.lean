import CoreBench.Stimuli.Matrix

/-!
The rows of a matrix and its cells.

What is proved:
  * `rows_flatten`: the rows, one behind the other, are the cells, none lost or doubled between two rows;
  * `eq_rows_iff`: nothing else than the rows is as many rows of as many elements, with those cells;
  * `rows_eq_cutEvery`: cutting the cells in order, a row at a time, gives the rows;
  * `ofCells?_of_size`: cells make a matrix of an allowed size if they are as many as a square needs;
  * `of_ofCells?`: a matrix that is made of cells has the size and the cells that it was made of.
-/

namespace CoreBench.Stimuli.Matrix

/-- The first rows are the first cells. -/
theorem flatten_map_row (m : Matrix) (k : Nat) :
    ((List.range k).map m.row).flatten = (m.cells.extract 0 (k * m.size)).toList := by
  induction k with
  | zero => simp
  | succ k ih =>
    have hk : (k + 1) * m.size = k * m.size + m.size := Nat.succ_mul k m.size
    have hcut : m.cells.extract 0 (k * m.size + m.size)
        = m.cells.extract 0 (k * m.size) ++ m.cells.extract (k * m.size) (k * m.size + m.size) := by
      rw [Array.extract_append_extract]
      congr 1
      omega
    rw [List.range_succ, List.map_append, List.flatten_append, ih, hk, hcut, Array.toList_append]
    simp [row]

theorem rows_flatten (m : Matrix) : m.rows.flatten = m.cells.toList := by
  rw [rows, flatten_map_row, ← m.square, Array.extract_eq_self_of_le (Nat.le_refl _)]

/-- A row goes over all columns. -/
theorem length_of_mem_rows {m : Matrix} {r : List Int32} (h : r ∈ m.rows) : r.length = m.size := by
  obtain ⟨i, hi, rfl⟩ := List.mem_map.mp h
  have hend : i * m.size + m.size ≤ m.cells.size := by
    rw [m.square, ← Nat.succ_mul]
    exact Nat.mul_le_mul_right m.size (List.mem_range.mp hi)
  rw [row, Array.length_toList, Array.size_extract, Nat.min_eq_left hend, Nat.add_sub_cancel_left]

theorem map_length_rows (m : Matrix) : m.rows.map List.length = List.replicate m.size m.size := by
  rw [List.eq_replicate_iff, List.length_map, rows_length]
  refine ⟨rfl, fun k hk => ?_⟩
  obtain ⟨r, hr, rfl⟩ := List.mem_map.mp hk
  exact length_of_mem_rows hr

/-- Rows are known by their number, their lengths, and their cells. -/
theorem eq_rows_iff (m : Matrix) (rs : List (List Int32)) :
    rs = m.rows ↔ rs.map List.length = List.replicate m.size m.size ∧ rs.flatten = m.cells.toList := by
  rw [List.eq_iff_flatten_eq, m.rows_flatten, m.map_length_rows, And.comm]

/-- A sequence cut every `n` elements, but at least one, as far as it goes; what is left of it in the end may be
shorter. -/
def cutEvery (n : Nat) : List Int32 → List (List Int32)
  | [] => []
  | v :: vs => (v :: vs.take (n - 1)) :: cutEvery n (vs.drop (n - 1))
termination_by vs => vs.length
decreasing_by
  simp only [List.length_drop, List.length_cons]
  omega

theorem cutEvery_flatten {n : Nat} (hn : 0 < n) {rs : List (List Int32)} (h : ∀ r ∈ rs, r.length = n) :
    cutEvery n rs.flatten = rs := by
  induction rs with
  | nil => rw [List.flatten_nil, cutEvery]
  | cons r rs ih =>
    obtain ⟨hr, hrs⟩ := List.forall_mem_cons.mp h
    obtain ⟨v, vs, rfl⟩ := List.exists_cons_of_length_pos (hr ▸ hn)
    have hvs : vs.length = n - 1 := Nat.eq_sub_of_add_eq hr
    rw [List.flatten_cons, List.cons_append, cutEvery, List.take_left' hvs, List.drop_left' hvs, ih hrs]

/-- With no rows there are no cells, and nothing is cut. -/
theorem rows_eq_cutEvery (m : Matrix) : m.rows = cutEvery (max m.size 1) m.cells.toList := by
  rw [← m.rows_flatten, cutEvery_flatten (by omega)]
  intro r hr
  have hpos : 0 < m.size := by
    rw [← m.rows_length]
    exact List.length_pos_of_mem hr
  rw [length_of_mem_rows hr]
  omega

theorem cellCount?_of_le {n : Nat} (h : n ≤ maxSize) : cellCount? n = some (n * n) := by
  have hn : n * n ≤ maxSize * maxSize := Nat.mul_le_mul h h
  have hm : maxSize * maxSize ≤ max64 := by decide
  exact if_pos (Nat.le_trans hn hm)

/-- As many cells as a square needs make a matrix. -/
theorem ofCells?_of_size {n : Nat} {cells : Array Int32} (hn : n ≤ maxSize)
    (h : cells.size = n * n) : ofCells? n cells = .ok ⟨n, cells, h⟩ := by
  rw [ofCells?, cellCount?_of_le hn]
  simp only [h, dif_pos]

/-- A matrix that is made of cells has the size and the cells that it was made of. -/
theorem of_ofCells? {n : Nat} {cells : Array Int32} {m : Matrix} (h : ofCells? n cells = .ok m) :
    m.size = n ∧ m.cells = cells := by
  rw [ofCells?] at h
  split at h
  · cases h
  · split at h
    · obtain rfl := Except.ok.inj h
      exact ⟨rfl, rfl⟩
    · cases h

end CoreBench.Stimuli.Matrix
