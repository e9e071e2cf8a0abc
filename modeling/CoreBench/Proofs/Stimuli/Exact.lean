import CoreBench.Proofs.Stimuli.Checked

/-!
What a product of matrices comes to. For operands of one size it is the matrix of the exact sums, if all of them fit;
if not, it is refused for the first one that does not, in the order of rows, and the error carries that sum. On the way
there no sum leaves its 128 bits, and no element is asked for that is not there.

What is proved:
  * `FirstCell.unique`, `firstCell_of_position`: first cells in the order of rows, and first positions;
  * `multiply_eq_ok_iff`, `multiply_eq_error_iff`: what multiplying operands of one size comes to;
  * `Built.size_le`: matrices that can be built have as many cells as 64 bits can count;
  * `multiply_exact`: all of this of any two matrices.
-/

namespace CoreBench.Stimuli

/-! ## The order of rows -/

/-- Whether one cell is ahead of another one in the order of rows. -/
def CellAhead (i j row col : Nat) : Prop :=
  i < row ∨ i = row ∧ j < col

/-- The first cell of a square of `n` rows for which something holds. -/
structure FirstCell (n : Nat) (P : Nat → Nat → Prop) (row col : Nat) : Prop where
  row_lt : row < n
  col_lt : col < n
  holds : P row col
  first : ∀ i j, i < n → j < n → CellAhead i j row col → ¬ P i j

theorem FirstCell.unique {n : Nat} {P : Nat → Nat → Prop} {row col row' col' : Nat}
    (h : FirstCell n P row col) (h' : FirstCell n P row' col') : row = row' ∧ col = col' := by
  have hnot : ¬ CellAhead row col row' col' := fun hahead =>
    h'.first row col h.row_lt h.col_lt hahead h.holds
  have hnot' : ¬ CellAhead row' col' row col := fun hahead =>
    h.first row' col' h'.row_lt h'.col_lt hahead h'.holds
  unfold CellAhead at hnot hnot'
  omega

/-- The order of rows is that of the positions. -/
theorem position_lt_of_cellAhead {n i j p : Nat} (hj : j < n) (h : CellAhead i j (p / n) (p % n)) :
    i * n + j < p := by
  have hp : p / n * n + p % n = p := Nat.div_add_mod' p n
  rcases h with hrow | ⟨rfl, hcol⟩
  · have hrows : (i + 1) * n ≤ p / n * n := Nat.mul_le_mul_right n hrow
    rw [Nat.succ_mul] at hrows
    omega
  · omega

theorem firstCell_of_position {n p : Nat} {P : Nat → Nat → Prop} (hp : p < n * n) (h : P (p / n) (p % n))
    (hfirst : ∀ q, q < p → ¬ P (q / n) (q % n)) : FirstCell n P (p / n) (p % n) := by
  obtain ⟨hrow, hcol⟩ := Matrix.div_mod_lt hp
  refine ⟨hrow, hcol, h, fun i j hi hj hahead => ?_⟩
  obtain ⟨-, hdiv, hmod⟩ := Matrix.position_lt hi hj
  have hnot := hfirst (i * n + j) (position_lt_of_cellAhead hj hahead)
  rwa [hdiv, hmod] at hnot

namespace Matrix

variable {a b c : Matrix}

/-! ## Exact products -/

/-- The exact element of a product of two matrices. -/
def exactSum (a b : Matrix) (row col : Nat) : Int :=
  ∑ k ∈ Finset.range a.size, a.entry row k * b.entry k col

theorem dot_eq_exactSum (a b : Matrix) (row col : Nat) : dot a b row col a.size = a.exactSum b row col :=
  dot_eq_sum a b row col a.size

/-- A matrix whose elements are those of the exact product. -/
structure IsProduct (a b c : Matrix) : Prop where
  size_eq : c.size = a.size
  elements : ∀ row col, row < a.size → col < a.size →
    ∃ v, c.get? row col = some v ∧ v.toInt = a.exactSum b row col

/-- Matrices of one size are the same if their elements are. -/
theorem ext_get? {m n : Matrix} (hsize : m.size = n.size)
    (h : ∀ row col, row < m.size → col < m.size → m.get? row col = n.get? row col) : m = n := by
  have hcells : m.cells = n.cells := by
    apply Array.ext_getElem?
    intro i
    by_cases hi : i < m.size * m.size
    · obtain ⟨hrow, hcol⟩ := div_mod_lt hi
      have hget := h _ _ hrow hcol
      rwa [get?_position, hsize, get?_position] at hget
    · rw [Array.getElem?_eq_none (by rw [m.square]; omega),
        Array.getElem?_eq_none (by rw [n.square, ← hsize]; omega)]
  cases m
  cases n
  simp only at hsize hcells
  subst hsize
  subst hcells
  rfl

/-- There is one exact product at most. -/
theorem IsProduct.unique {c' : Matrix} (h : IsProduct a b c) (h' : IsProduct a b c') : c = c' := by
  apply ext_get? (h.size_eq.trans h'.size_eq.symm)
  intro row col hrow hcol
  rw [h.size_eq] at hrow hcol
  obtain ⟨v, hv, hsum⟩ := h.elements row col hrow hcol
  obtain ⟨v', hv', hsum'⟩ := h'.elements row col hrow hcol
  have hsame : v = v' := Int32.toInt_inj.mp (hsum.trans hsum'.symm)
  rw [hv, hv', hsame]

theorem IsProduct.fits (h : IsProduct a b c) {row col : Nat} (hrow : row < a.size) (hcol : col < a.size) :
    Fits (a.exactSum b row col) := by
  obtain ⟨v, -, hsum⟩ := h.elements row col hrow hcol
  rw [← hsum]
  exact fits_toInt v

/-! ## Multiplying -/

/-- A product is made if all of its elements fit. -/
theorem exists_isProduct (hsize : a.size = b.size)
    (hfits : ∀ row col, row < a.size → col < a.size → Fits (a.exactSum b row col)) :
    ∃ c, a.multiply b = .ok c ∧ IsProduct a b c := by
  obtain ⟨c, hc, hcsize, hcells⟩ := multiply_of_fits hsize fun row col hrow hcol => by
    rw [dot_eq_exactSum]
    exact hfits row col hrow hcol
  refine ⟨c, hc, hcsize, fun row col hrow hcol => ?_⟩
  rw [← dot_eq_exactSum]
  exact hcells row col hrow hcol

theorem multiply_eq_ok_iff (hsize : a.size = b.size) : a.multiply b = .ok c ↔ IsProduct a b c := by
  constructor
  · intro h
    obtain ⟨c', hc', hproduct⟩ := exists_isProduct hsize fun row col hrow hcol => by
      rw [← dot_eq_exactSum]
      exact fits_of_multiply h hrow hcol
    obtain rfl := Except.ok.inj (h.symm.trans hc')
    exact hproduct
  · intro h
    obtain ⟨c', hc', hproduct⟩ := exists_isProduct hsize fun row col => h.fits
    rw [h.unique hproduct]
    exact hc'

/-- The first element of a product, in the order of rows, that does not fit. -/
def FirstBeyond (a b : Matrix) : Nat → Nat → Prop :=
  FirstCell a.size fun row col => ¬ Fits (a.exactSum b row col)

theorem exists_firstBeyond (hsize : a.size = b.size) {e : StimuliError} (h : a.multiply b = .error e) :
    ∃ row col, a.FirstBeyond b row col ∧ e = .overflow row col (a.exactSum b row col) := by
  obtain ⟨i, hi, hbeyond, he, hbefore⟩ := multiply_error hsize h
  simp only [dot_eq_exactSum] at hbeyond he hbefore
  refine ⟨_, _, firstCell_of_position hi hbeyond fun j hj => ?_, he⟩
  exact not_not_intro (hbefore j hj)

theorem multiply_eq_error_iff (hsize : a.size = b.size) {e : StimuliError} :
    a.multiply b = .error e ↔
      ∃ row col, a.FirstBeyond b row col ∧ e = .overflow row col (a.exactSum b row col) := by
  constructor
  · exact exists_firstBeyond hsize
  · rintro ⟨row, col, hfirst, rfl⟩
    cases h : a.multiply b with
    | ok c =>
      exact absurd (((multiply_eq_ok_iff hsize).mp h).fits hfirst.row_lt hfirst.col_lt) hfirst.holds
    | error e =>
      obtain ⟨row', col', hfirst', rfl⟩ := exists_firstBeyond hsize h
      obtain ⟨rfl, rfl⟩ := hfirst.unique hfirst'
      rfl

theorem multiply_eq_ok_iff_fits (hsize : a.size = b.size) :
    (∃ c, a.multiply b = .ok c) ↔
      ∀ row col, row < a.size → col < a.size → Fits (a.exactSum b row col) := by
  constructor
  · rintro ⟨c, hc⟩ row col hrow hcol
    exact ((multiply_eq_ok_iff hsize).mp hc).fits hrow hcol
  · intro hfits
    obtain ⟨c, hc, -⟩ := exists_isProduct hsize hfits
    exact ⟨c, hc⟩

theorem multiply_eq_mismatch_iff {l r : Nat} :
    a.multiply b = .error (.dimensionMismatch l r) ↔ a.size ≠ b.size ∧ l = a.size ∧ r = b.size := by
  by_cases hsize : a.size = b.size
  · constructor
    · intro h
      obtain ⟨row, col, -, he⟩ := exists_firstBeyond hsize h
      cases he
    · rintro ⟨hne, -⟩
      exact absurd hsize hne
  · rw [multiply, if_neg hsize]
    constructor
    · intro h
      cases h
      exact ⟨hsize, rfl, rfl⟩
    · rintro ⟨-, rfl, rfl⟩
      rfl

/-! ## Room for sums and positions -/

/-- The matrices that can be built: from cells, and by multiplying. -/
inductive Built : Matrix → Prop
  | cells {n : Nat} {cs : Array Int32} {m : Matrix} : ofCells? n cs = .ok m → Built m
  | product {a b c : Matrix} : Built a → Built b → a.multiply b = .ok c → Built c

theorem Built.size_le {m : Matrix} (h : m.Built) : m.size * m.size ≤ max64 := by
  induction h with
  | @cells n cs m h =>
    unfold ofCells? cellCount? at h
    split at h
    · cases h
    · next k hk =>
      split at h
      · obtain rfl := Except.ok.inj h
        split at hk
        · next hle => exact hle
        · cases hk
      · cases h
  | product _ _ hproduct ha _ => rwa [multiply_size hproduct]

/-- **Products are exact.** Operands of different sizes are refused for that. The product of operands of one size is
made exactly if all exact sums fit, and is the matrix of those sums; what else it is refused for is the first sum in the
order of rows that does not fit, with its value. As long as 64 bits can count the cells, as they can for all matrices
that can be built, every sum on the way has room in 128 bits and every element that is asked for is there. -/
theorem multiply_exact (a b : Matrix) :
    (∀ l r, a.multiply b = .error (.dimensionMismatch l r) ↔ a.size ≠ b.size ∧ l = a.size ∧ r = b.size) ∧
    (a.size = b.size →
      ((∃ c, a.multiply b = .ok c) ↔
        ∀ row col, row < a.size → col < a.size → Fits (a.exactSum b row col)) ∧
      (∀ c, a.multiply b = .ok c ↔ IsProduct a b c) ∧
      ∀ e, a.multiply b = .error e ↔
        ∃ row col, a.FirstBeyond b row col ∧ e = .overflow row col (a.exactSum b row col)) ∧
    (a.Built → a.size * a.size ≤ max64) ∧
    (a.size * a.size ≤ max64 →
      a.multiplyChecked b = (a.multiply b).mapError .fault ∧
      (a.size = b.size → ∀ row col k, row < a.size → col < a.size → k ≤ a.size →
        a.dotChecked b row col k = .ok (∑ i ∈ Finset.range k, a.entry row i * b.entry i col))) := by
  refine ⟨fun l r => multiply_eq_mismatch_iff, fun hsize => ?_, Built.size_le, fun hcount => ?_⟩
  · exact ⟨multiply_eq_ok_iff_fits hsize, fun c => multiply_eq_ok_iff hsize, fun e => multiply_eq_error_iff hsize⟩
  · have hmax : a.size ≤ max64 := Nat.le_trans (Nat.le_mul_self a.size) hcount
    refine ⟨multiplyChecked_eq hmax, fun hsize row col k hrow hcol hk => ?_⟩
    rw [dotChecked_eq hsize hmax hrow hcol hk, dot_eq_sum]

/-- Both sums of the first column are too large, and the one of the first row is reported; the sums of the second
column fit. -/
theorem multiply_exact_column :
    let a : Matrix := ⟨2, #[0x7FFFFFFF, 1, -0x80000000, -1], rfl⟩
    let b : Matrix := ⟨2, #[1, 0, 1, 0], rfl⟩
    (a.Built ∧ a.size = b.size ∧ a.size * a.size ≤ max64) ∧
      a.multiply b = .error (.overflow 0 0 0x80000000) ∧
      a.dotChecked b 0 0 2 = .ok (∑ i ∈ Finset.range 2, a.entry 0 i * b.entry i 0) := by
  intro a b
  have hbuilt : a.Built := .cells (show ofCells? 2 #[0x7FFFFFFF, 1, -0x80000000, -1] = .ok a from rfl)
  obtain ⟨-, hone, hcount, hroom⟩ := multiply_exact a b
  obtain ⟨-, -, herror⟩ := hone rfl
  refine ⟨⟨hbuilt, rfl, hcount hbuilt⟩, ?_, (hroom (hcount hbuilt)).2 rfl 0 0 2 ?_ ?_ ?_⟩
  · apply (herror _).mpr
    refine ⟨0, 0, ⟨by decide, by decide, by decide, fun i j _ _ hahead => ?_⟩, by decide⟩
    unfold CellAhead at hahead
    omega
  · decide
  · decide
  · decide

end Matrix

end CoreBench.Stimuli
