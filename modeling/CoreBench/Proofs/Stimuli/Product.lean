import CoreBench.Stimuli.Matrix
import Mathlib.Algebra.BigOperators.Group.Finset.Basic

/-!
Products of matrices, cell by cell. Sums are exact; the only thing that can go wrong with operands of one
size is a sum that does not fit.

What is proved:
  * `dot_eq_sum`: a cell of the product is the sum of the products along a row and a column;
  * `collect_ok`, `collect_error`: cells are collected in order up to the first one that fails;
  * `multiply_of_fits`: if every sum fits, the product is the matrix of the sums;
  * `multiply_error`: what fails is the first sum that does not fit, in the order of rows;
  * `natAbs_dot_le`: a sum of `n` products of elements up to `r` is at most `n * r * r`.
-/

namespace CoreBench.Stimuli.Matrix

/-- Whether an integer fits into 32 bits. -/
def Fits (v : Int) : Prop :=
  -(maxInt32 + 1) ≤ v ∧ v ≤ maxInt32

instance (v : Int) : Decidable (Fits v) :=
  inferInstanceAs (Decidable (_ ∧ _))

theorem fits_toInt (v : Int32) : Fits v.toInt := by
  have hlo := v.le_toInt
  have hhi := v.toInt_lt
  constructor <;> simp only [maxInt32] <;> omega

theorem toInt_ofInt_of_fits {v : Int} (h : Fits v) : (Int32.ofInt v).toInt = v := by
  obtain ⟨hlo, hhi⟩ := h
  simp only [maxInt32] at hlo hhi
  exact Int32.toInt_ofInt_of_le (by omega) (by omega)

theorem fits_of_natAbs_le {v : Int} (h : v.natAbs ≤ maxInt32) : Fits v := by
  constructor <;> omega

theorem narrow_of_fits {v : Int} (h : Fits v) (row col : Nat) :
    narrow row col v = .ok (Int32.ofInt v) :=
  if_pos h

theorem narrow_of_not_fits {v : Int} (h : ¬ Fits v) (row col : Nat) :
    narrow row col v = .error (.overflow row col v) :=
  if_neg h

theorem fits_of_narrow {row col : Nat} {v : Int} {c : Int32} (h : narrow row col v = .ok c) :
    Fits v := by
  by_cases hv : Fits v
  · exact hv
  · rw [narrow_of_not_fits hv] at h
    cases h

/-! ## Sums -/

theorem dot_eq_sum (a b : Matrix) (row col n : Nat) :
    dot a b row col n = ∑ k ∈ Finset.range n, a.entry row k * b.entry k col := by
  induction n with
  | zero => rfl
  | succ n ih =>
    rw [Finset.sum_range_succ, ← ih]
    rfl

/-- An element is a cell, or 0. -/
theorem natAbs_entry_le {m : Matrix} {r : Nat} (h : ∀ v ∈ m.cells, v.toInt.natAbs ≤ r)
    (row col : Nat) : (m.entry row col).natAbs ≤ r := by
  rw [entry, Array.getD_eq_getD_getElem?]
  cases hv : m.cells[row * m.size + col]? with
  | none => exact Nat.zero_le r
  | some v => exact h v (Array.mem_of_getElem? hv)

theorem natAbs_dot_le {a b : Matrix} {r : Nat} (ha : ∀ v ∈ a.cells, v.toInt.natAbs ≤ r)
    (hb : ∀ v ∈ b.cells, v.toInt.natAbs ≤ r) (row col n : Nat) :
    (dot a b row col n).natAbs ≤ n * r * r := by
  induction n with
  | zero => exact Nat.zero_le _
  | succ n ih =>
    have hterm : (a.entry row n * b.entry n col).natAbs ≤ r * r := by
      rw [Int.natAbs_mul]
      exact Nat.mul_le_mul (natAbs_entry_le ha row n) (natAbs_entry_le hb n col)
    calc (dot a b row col (n + 1)).natAbs
        ≤ (dot a b row col n).natAbs + (a.entry row n * b.entry n col).natAbs :=
          Int.natAbs_add_le _ _
      _ ≤ n * r * r + r * r := Nat.add_le_add ih hterm
      _ = (n + 1) * r * r := by rw [Nat.succ_mul, Nat.add_mul]

/-! ## Cells -/

/-- What has been collected: what was there, and behind it each cell at its position. -/
theorem collect_ok {ε : Type} {f : Nat → Except ε Int32} {acc cs : Array Int32} {n : Nat}
    (h : collect f acc n = .ok cs) :
    (∀ i, i < acc.size → cs[i]? = acc[i]?) ∧
      ∀ i, acc.size ≤ i → i < acc.size + n → ∃ c, f i = .ok c ∧ cs[i]? = some c := by
  induction n generalizing acc with
  | zero =>
    obtain rfl := Except.ok.inj h
    exact ⟨fun _ _ => rfl, fun i hlo hhi => absurd hhi (by omega)⟩
  | succ n ih =>
    simp only [collect] at h
    split at h
    · cases h
    · next c hc =>
      obtain ⟨hkept, hnew⟩ := ih h
      rw [Array.size_push] at hkept hnew
      have hhere : cs[acc.size]? = some c := by
        rw [hkept acc.size (Nat.lt_succ_self _), Array.getElem?_push_size]
      refine ⟨fun i hi => ?_, fun i hlo hhi => ?_⟩
      · rw [hkept i (Nat.lt_succ_of_lt hi), Array.getElem?_push, if_neg (Nat.ne_of_lt hi)]
      · rcases Nat.eq_or_lt_of_le hlo with rfl | hlt
        · exact ⟨c, hc, hhere⟩
        · exact hnew i hlt (by omega)

/-- What fails is the first cell that cannot be made. -/
theorem collect_error {ε : Type} {f : Nat → Except ε Int32} {acc : Array Int32} {n : Nat} {e : ε}
    (h : collect f acc n = .error e) :
    ∃ i, acc.size ≤ i ∧ i < acc.size + n ∧ f i = .error e ∧
      ∀ j, acc.size ≤ j → j < i → ∃ c, f j = .ok c := by
  induction n generalizing acc with
  | zero => cases h
  | succ n ih =>
    simp only [collect] at h
    split at h
    · next e' he =>
      obtain rfl := Except.error.inj h
      exact ⟨acc.size, Nat.le_refl _, by omega, he, fun j hlo hhi => absurd hhi (by omega)⟩
    · next c hc =>
      obtain ⟨i, hlo, hhi, hi, hbefore⟩ := ih h
      rw [Array.size_push] at hlo hhi hbefore
      refine ⟨i, by omega, by omega, hi, fun j hj hji => ?_⟩
      rcases Nat.eq_or_lt_of_le hj with rfl | hlt
      · exact ⟨c, hc⟩
      · exact hbefore j hlt hji

/-- Rows and columns of the positions among the cells. -/
theorem div_mod_lt {n i : Nat} (h : i < n * n) : i / n < n ∧ i % n < n := by
  have hn : 0 < n := Nat.pos_of_ne_zero (by rintro rfl; simp at h)
  exact ⟨Nat.div_lt_of_lt_mul h, Nat.mod_lt i hn⟩

theorem position_lt {n row col : Nat} (hrow : row < n) (hcol : col < n) :
    row * n + col < n * n ∧ (row * n + col) / n = row ∧ (row * n + col) % n = col := by
  have hn : 0 < n := Nat.zero_lt_of_lt hrow
  have hle : (row + 1) * n ≤ n * n := Nat.mul_le_mul_right n hrow
  rw [Nat.succ_mul] at hle
  refine ⟨by omega, ?_, ?_⟩
  · rw [Nat.mul_comm, Nat.mul_add_div hn, Nat.div_eq_of_lt hcol, Nat.add_zero]
  · rw [Nat.mul_comm, Nat.mul_add_mod, Nat.mod_eq_of_lt hcol]

theorem get?_position (m : Matrix) (i : Nat) : m.get? (i / m.size) (i % m.size) = m.cells[i]? := by
  rw [get?, Nat.div_add_mod']

/-- If every sum fits, the product is the matrix of the sums. -/
theorem multiply_of_fits {a b : Matrix} (hsize : a.size = b.size)
    (hfits : ∀ row col, row < a.size → col < a.size → Fits (dot a b row col a.size)) :
    ∃ c, multiply a b = .ok c ∧ c.size = a.size ∧
      ∀ row col, row < a.size → col < a.size →
        ∃ v, c.get? row col = some v ∧ v.toInt = dot a b row col a.size := by
  have hcell : ∀ i, i < a.size * a.size → productCell a b i
      = .ok (Int32.ofInt (dot a b (i / a.size) (i % a.size) a.size)) := by
    intro i hi
    obtain ⟨hrow, hcol⟩ := div_mod_lt hi
    exact narrow_of_fits (hfits _ _ hrow hcol) _ _
  rw [multiply, if_pos hsize]
  split
  · next e he =>
    -- The cell that is said to fail is one whose sum fits.
    obtain ⟨i, -, hhi, hi, -⟩ := collect_error he
    rw [hcell i (by simpa using hhi)] at hi
    cases hi
  · next cells hcells =>
    refine ⟨_, rfl, rfl, fun row col hrow hcol => ?_⟩
    obtain ⟨hlt, hdiv, hmod⟩ := position_lt hrow hcol
    obtain ⟨v, hv, hget⟩ := (collect_ok hcells).2 (row * a.size + col) (Nat.zero_le _) (by simpa using hlt)
    rw [hcell _ hlt, hdiv, hmod] at hv
    obtain rfl := Except.ok.inj hv
    exact ⟨_, hget, toInt_ofInt_of_fits (hfits row col hrow hcol)⟩

/-- What fails is the first sum that does not fit, and the error is about that sum. -/
theorem multiply_error {a b : Matrix} (hsize : a.size = b.size) {e : StimuliError}
    (h : multiply a b = .error e) :
    ∃ i, i < a.size * a.size ∧ ¬ Fits (dot a b (i / a.size) (i % a.size) a.size) ∧
      e = .overflow (i / a.size) (i % a.size) (dot a b (i / a.size) (i % a.size) a.size) ∧
      ∀ j, j < i → Fits (dot a b (j / a.size) (j % a.size) a.size) := by
  rw [multiply, if_pos hsize] at h
  split at h
  · next e' he =>
    obtain rfl := Except.error.inj h
    obtain ⟨i, -, hi, hcell, hbefore⟩ := collect_error he
    have hnot : ¬ Fits (dot a b (i / a.size) (i % a.size) a.size) := by
      intro hfits
      rw [productCell, narrow_of_fits hfits] at hcell
      cases hcell
    refine ⟨i, by simpa using hi, hnot, ?_, fun j hj => ?_⟩
    · rw [productCell, narrow_of_not_fits hnot] at hcell
      exact (Except.error.inj hcell).symm
    · obtain ⟨c, hc⟩ := hbefore j (Nat.zero_le j) hj
      exact fits_of_narrow hc
  · cases h

/-- A product that is made leaves no sum that does not fit. -/
theorem fits_of_multiply {a b c : Matrix} (h : multiply a b = .ok c) {row col : Nat}
    (hrow : row < a.size) (hcol : col < a.size) : Fits (dot a b row col a.size) := by
  rw [multiply] at h
  split at h
  · split at h
    · cases h
    · next cells hcells =>
      obtain ⟨hlt, hdiv, hmod⟩ := position_lt hrow hcol
      obtain ⟨v, hv, -⟩ :=
        (collect_ok hcells).2 (row * a.size + col) (Nat.zero_le _) (by simpa using hlt)
      rw [productCell, hdiv, hmod] at hv
      exact fits_of_narrow hv
  · cases h

end CoreBench.Stimuli.Matrix
