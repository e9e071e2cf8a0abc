import CoreBench.Proofs.Stimuli.Exact
import Mathlib.Algebra.BigOperators.Group.Finset.Sigma
import Mathlib.Algebra.BigOperators.Ring.Finset

/-!
Products as those of a monoid, as far as they are made. Sums are exact, so as long as every element on the way fits into
32 bits, products of matrices obey the laws of products of integers; an element that does not fit ends the product, and
no law is claimed of it.

What is proved:
  * `get?_identity`: the identity matrix has 1 on its diagonal and 0 everywhere else;
  * `isProduct_identity`, `identity_isProduct`: every matrix is its own product with the identity, on either side;
  * `exactSum_assoc`: a sum of sums does not depend on which of them is taken first;
  * `multiply_monoid`: the identity is neutral, and products that are made are associative.
-/

namespace CoreBench.Stimuli.Matrix

variable {a b c ab bc : Matrix}

/-! ## The identity -/

/-- The identity matrix: 1 on the diagonal, 0 everywhere else. -/
def identity (n : Nat) : Matrix :=
  ⟨n, Array.ofFn fun i : Fin (n * n) => if i.val / n = i.val % n then 1 else 0, Array.size_ofFn⟩

theorem get?_identity {n row col : Nat} (hrow : row < n) (hcol : col < n) :
    (identity n).get? row col = some (if row = col then 1 else 0) := by
  obtain ⟨hlt, hdiv, hmod⟩ := position_lt hrow hcol
  simp only [get?, identity, Array.getElem?_ofFn, dif_pos hlt, hdiv, hmod]

theorem entry_identity {n row col : Nat} (hrow : row < n) (hcol : col < n) :
    (identity n).entry row col = if row = col then 1 else 0 := by
  obtain ⟨v, hget, hentry⟩ := get?_of_lt (m := identity n) hrow hcol
  rw [get?_identity hrow hcol] at hget
  obtain rfl := Option.some.inj hget
  rw [← hentry]
  split <;> rfl

/-- A matrix whose elements are the sums along its rows and the columns of another one is its product with that one. -/
theorem isProduct_of_entries (hsize : c.size = a.size)
    (h : ∀ row col, row < a.size → col < a.size → a.exactSum b row col = c.entry row col) : IsProduct a b c := by
  refine ⟨hsize, fun row col hrow hcol => ?_⟩
  obtain ⟨v, hget, hentry⟩ := get?_of_lt (m := c) (hsize ▸ hrow) (hsize ▸ hcol)
  exact ⟨v, hget, hentry.trans (h row col hrow hcol).symm⟩

/-- Of the sum along a row, the identity leaves the one element in its column. -/
theorem isProduct_identity (a : Matrix) : IsProduct a (identity a.size) a := by
  refine isProduct_of_entries rfl fun row col _ hcol => ?_
  calc a.exactSum (identity a.size) row col
      = ∑ k ∈ Finset.range a.size, if k = col then a.entry row k else 0 := by
        refine Finset.sum_congr rfl fun k hk => ?_
        rw [entry_identity (Finset.mem_range.mp hk) hcol, mul_ite, mul_one, mul_zero]
    _ = a.entry row col := by
        rw [Finset.sum_ite_eq', if_pos (Finset.mem_range.mpr hcol)]

/-- Of the sum along a column, it leaves the one element in its row. -/
theorem identity_isProduct (a : Matrix) : IsProduct (identity a.size) a a := by
  refine isProduct_of_entries rfl fun row col (hrow : row < a.size) _ => ?_
  calc (identity a.size).exactSum a row col
      = ∑ k ∈ Finset.range a.size, if row = k then a.entry k col else 0 := by
        refine Finset.sum_congr rfl fun k hk => ?_
        rw [entry_identity hrow (Finset.mem_range.mp hk), ite_mul, one_mul, zero_mul]
    _ = a.entry row col := by
        rw [Finset.sum_ite_eq, if_pos (Finset.mem_range.mpr hrow)]

/-! ## Products of three -/

theorem IsProduct.entry_eq (h : IsProduct a b c) {row col : Nat} (hrow : row < a.size) (hcol : col < a.size) :
    c.entry row col = a.exactSum b row col := by
  obtain ⟨v, hget, hentry⟩ := get?_of_lt (m := c) (h.size_eq ▸ hrow) (h.size_eq ▸ hcol)
  obtain ⟨w, hget', hsum⟩ := h.elements row col hrow hcol
  obtain rfl := Option.some.inj (hget.symm.trans hget')
  exact hentry.symm.trans hsum

/-- The sums of products of three elements, taken in one order and in the other. -/
theorem exactSum_assoc (hab : IsProduct a b ab) (hbc : IsProduct b c bc) (hsize : a.size = b.size) {row col : Nat}
    (hrow : row < a.size) (hcol : col < a.size) : ab.exactSum c row col = a.exactSum bc row col := by
  calc ab.exactSum c row col
      = ∑ k ∈ Finset.range a.size, ∑ i ∈ Finset.range a.size, a.entry row i * b.entry i k * c.entry k col := by
        rw [exactSum, hab.size_eq]
        refine Finset.sum_congr rfl fun k hk => ?_
        rw [hab.entry_eq hrow (Finset.mem_range.mp hk), exactSum, Finset.sum_mul]
    _ = ∑ i ∈ Finset.range a.size, ∑ k ∈ Finset.range a.size, a.entry row i * b.entry i k * c.entry k col :=
        Finset.sum_comm
    _ = a.exactSum bc row col := by
        refine Finset.sum_congr rfl fun i hi => ?_
        rw [hbc.entry_eq (hsize ▸ Finset.mem_range.mp hi) (hsize ▸ hcol), exactSum, Finset.mul_sum, hsize]
        exact Finset.sum_congr rfl fun k _ => mul_assoc _ _ _

theorem size_eq_of_multiply (h : a.multiply b = .ok c) : a.size = b.size := by
  by_contra hne
  rw [multiply, if_neg hne] at h
  cases h

/-- **Products are those of a monoid, where they are made.** There is a matrix of every size with 1 on its diagonal and 0
everywhere else. Multiplying by it, on either side, never fails and changes nothing. Three matrices have one product,
whichever two of them are multiplied first, unless a product on the way is refused. -/
theorem multiply_monoid :
    (∀ n, (identity n).size = n ∧
      ∀ row col, row < n → col < n → (identity n).get? row col = some (if row = col then 1 else 0)) ∧
    (∀ a : Matrix, a.multiply (identity a.size) = .ok a ∧ (identity a.size).multiply a = .ok a) ∧
    ∀ a b c ab bc l r : Matrix, a.multiply b = .ok ab → b.multiply c = .ok bc → ab.multiply c = .ok l →
      a.multiply bc = .ok r → l = r := by
  refine ⟨fun n => ⟨rfl, fun row col => get?_identity⟩, fun a => ⟨?_, ?_⟩, ?_⟩
  · have hsize : a.size = (identity a.size).size := rfl
    exact (multiply_eq_ok_iff hsize).mpr (isProduct_identity a)
  · have hsize : (identity a.size).size = a.size := rfl
    exact (multiply_eq_ok_iff hsize).mpr (identity_isProduct a)
  · intro a b c ab bc l r hab hbc hl hr
    have hsize := size_eq_of_multiply hab
    have hproduct := (multiply_eq_ok_iff hsize).mp hab
    have hproduct' := (multiply_eq_ok_iff (size_eq_of_multiply hbc)).mp hbc
    obtain ⟨hlsize, hlelements⟩ := (multiply_eq_ok_iff (size_eq_of_multiply hl)).mp hl
    have hrproduct := (multiply_eq_ok_iff (size_eq_of_multiply hr)).mp hr
    -- What comes of the first order is a product in the second one too.
    refine IsProduct.unique ⟨hlsize.trans hproduct.size_eq, fun row col hrow hcol => ?_⟩ hrproduct
    rw [← exactSum_assoc hproduct hproduct' hsize hrow hcol]
    exact hlelements row col (hproduct.size_eq ▸ hrow) (hproduct.size_eq ▸ hcol)

/-- Three matrices whose product has the least element of 32 bits in one column, multiplied in both orders. -/
theorem multiply_monoid_least :
    let a : Matrix := ⟨2, #[1, 1, 0, 1], rfl⟩
    let b : Matrix := ⟨2, #[1, 0, -1, 1], rfl⟩
    let c : Matrix := ⟨2, #[0, 1, -0x80000000, 0], rfl⟩
    let ab : Matrix := ⟨2, #[0, 1, -1, 1], rfl⟩
    let bc : Matrix := ⟨2, #[0, 1, -0x80000000, -1], rfl⟩
    let l : Matrix := ⟨2, #[-0x80000000, 0, -0x80000000, -1], rfl⟩
    let r : Matrix := ⟨2, #[-0x80000000, 0, -0x80000000, -1], rfl⟩
    (a.multiply b = .ok ab ∧ b.multiply c = .ok bc ∧ ab.multiply c = .ok l ∧ a.multiply bc = .ok r) ∧ l = r ∧
      (identity 2).get? 1 0 = some 0 ∧ c.multiply (identity 2) = .ok c ∧ (identity 2).multiply c = .ok c := by
  have hab : multiply ⟨2, #[1, 1, 0, 1], rfl⟩ ⟨2, #[1, 0, -1, 1], rfl⟩ = .ok ⟨2, #[0, 1, -1, 1], rfl⟩ := by cbv
  have hbc : multiply ⟨2, #[1, 0, -1, 1], rfl⟩ ⟨2, #[0, 1, -0x80000000, 0], rfl⟩
      = .ok ⟨2, #[0, 1, -0x80000000, -1], rfl⟩ := by cbv
  have hl : multiply ⟨2, #[0, 1, -1, 1], rfl⟩ ⟨2, #[0, 1, -0x80000000, 0], rfl⟩
      = .ok ⟨2, #[-0x80000000, 0, -0x80000000, -1], rfl⟩ := by cbv
  have hr : multiply ⟨2, #[1, 1, 0, 1], rfl⟩ ⟨2, #[0, 1, -0x80000000, -1], rfl⟩
      = .ok ⟨2, #[-0x80000000, 0, -0x80000000, -1], rfl⟩ := by cbv
  intro a b c ab bc l r
  obtain ⟨hidentity, hneutral, hassoc⟩ := multiply_monoid
  refine ⟨⟨hab, hbc, hl, hr⟩, hassoc a b c ab bc l r hab hbc hl hr, ?_, (hneutral c).1, (hneutral c).2⟩
  exact (hidentity 2).2 1 0 (by decide) (by decide)

end CoreBench.Stimuli.Matrix
