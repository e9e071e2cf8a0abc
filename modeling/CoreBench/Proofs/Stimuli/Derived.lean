import CoreBench.Stimuli.Params

/-!
Ranges that are derived from a size, and the worst case of a product, both computed in words: sizes of 64 bits, ranges
of 32 and products of 128. A computation in words comes to nothing where a product takes more bits or a divisor is 0.

What is proved:
  * `wideWorstCase?_eq`: neither the worst case nor the product on the way to it takes more than 128 bits;
  * `wordRange?_eq`: the budget is never divided by 0, and a size of more than 32 bits has no range;
  * `mul_worstCase_ofSize_le`: size times worst case stays within the square of the budget;
  * `ofSize_safe`: with the range derived from it, every size that is allowed for itself is valid.
-/

namespace CoreBench.Stimuli.Params

/-! ## Computations in words -/

/-- The largest number of 128 bits without a sign. -/
def max128 : Nat := 0xFFFFFFFFFFFFFFFFFFFFFFFFFFFFFFFF

/-- The product of two words of 128 bits, unless it takes more. -/
def wideMul? (x y : BitVec 128) : Option (BitVec 128) :=
  if x.umulOverflow y then none else some (x * y)

/-- The worst case of a size and a range, factor by factor. -/
def wideWorstCase? (size : UInt64) (range : UInt32) : Option (BitVec 128) := do
  let factor := range.toBitVec.setWidth 128
  let terms ← wideMul? (size.toBitVec.setWidth 128) factor
  wideMul? terms factor

/-- A size in 32 bits, if they hold it. -/
def narrowSize? (size : UInt64) : Option UInt32 :=
  if size.toNat ≤ max32 then some size.toUInt32 else none

/-- The quotient of two words, unless the divisor is 0. -/
def quotient? (n d : UInt32) : Option UInt32 :=
  if d = 0 then none else some (n / d)

/-- The range derived from a size: 0 for a size of 0 and for one of more than 32 bits. -/
def wordRange? (size : UInt64) : Option UInt32 :=
  match narrowSize? size with
  | some n => if 0 < n then quotient? (UInt32.ofNat rangeBudget) n else some 0
  | none => some 0

theorem wideMul?_eq {x y : BitVec 128} (h : x.toNat * y.toNat ≤ max128) :
    ∃ z, wideMul? x y = some z ∧ z.toNat = x.toNat * y.toNat := by
  have hfits : ¬ x.umulOverflow y := by
    rw [max128] at h
    simp only [BitVec.umulOverflow, decide_eq_true_eq]
    omega
  exact ⟨x * y, if_neg hfits, BitVec.toNat_mul_of_not_umulOverflow hfits⟩

theorem wideWorstCase?_eq (size : UInt64) (range : UInt32) :
    ∃ w, wideWorstCase? size range = some w ∧ w.toNat = size.toNat * range.toNat * range.toNat := by
  have hsize : (size.toBitVec.setWidth 128).toNat = size.toNat := BitVec.toNat_setWidth_of_le (by decide)
  have hrange : (range.toBitVec.setWidth 128).toNat = range.toNat := BitVec.toNat_setWidth_of_le (by decide)
  have hterms : size.toNat * range.toNat ≤ max64 * max32 :=
    Nat.mul_le_mul (Nat.le_of_lt_succ size.toNat_lt) (Nat.le_of_lt_succ range.toNat_lt)
  have hworst : size.toNat * range.toNat * range.toNat ≤ max64 * max32 * max32 :=
    Nat.mul_le_mul hterms (Nat.le_of_lt_succ range.toNat_lt)
  obtain ⟨t, ht, htval⟩ := wideMul?_eq (x := size.toBitVec.setWidth 128) (y := range.toBitVec.setWidth 128)
    (by rw [hsize, hrange]; exact Nat.le_trans hterms (by decide))
  rw [hsize, hrange] at htval
  obtain ⟨w, hw, hwval⟩ := wideMul?_eq (x := t) (y := range.toBitVec.setWidth 128)
    (by rw [htval, hrange]; exact Nat.le_trans hworst (by decide))
  rw [htval, hrange] at hwval
  refine ⟨w, ?_, hwval⟩
  rw [wideWorstCase?, ht]
  exact hw

/-! ## Derived ranges -/

theorem range_ofSize_of_lt {n : Nat} (h : rangeBudget < n) : (ofSize n).range = 0 := by
  rw [ofSize]
  split
  · rfl
  · exact Nat.div_eq_of_lt h

/-- The range of a size is derived without a trap. Beyond 32 bits the quotient would be 0 as well. -/
theorem wordRange?_eq (size : UInt64) :
    ∃ r, wordRange? size = some r ∧ r.toNat = (ofSize size.toNat).range := by
  by_cases hnarrow : size.toNat ≤ max32
  · have hword : size.toUInt32.toNat = size.toNat := by
      rw [UInt64.toNat_toUInt32]
      exact Nat.mod_eq_of_lt (Nat.lt_succ_of_le hnarrow)
    have hstep : wordRange? size =
        if 0 < size.toUInt32 then quotient? (UInt32.ofNat rangeBudget) size.toUInt32 else some 0 := by
      rw [wordRange?, narrowSize?, if_pos hnarrow]
    rw [hstep]
    by_cases hpos : 0 < size.toUInt32
    · have hne : size.toUInt32 ≠ 0 := fun h => by rw [h] at hpos; exact absurd hpos (by decide)
      have hsize : size.toNat ≠ 0 := fun h => hne (UInt32.toNat_inj.mp (hword.trans h))
      rw [if_pos hpos, quotient?, if_neg hne]
      refine ⟨_, rfl, ?_⟩
      rw [UInt32.toNat_div, hword, ofSize, if_neg hsize]
      rfl
    · have hzero : size.toNat = 0 := by
        rw [UInt32.lt_iff_toNat_lt, hword] at hpos
        exact Nat.eq_zero_of_not_pos hpos
      rw [if_neg hpos, hzero]
      exact ⟨0, rfl, rfl⟩
  · refine ⟨0, ?_, ?_⟩
    · rw [wordRange?, narrowSize?, if_neg hnarrow]
    · rw [range_ofSize_of_lt (Nat.lt_trans (by decide) (Nat.lt_of_not_le hnarrow))]
      rfl

/-- Size times worst case is a square, and its side stays within the budget. -/
theorem mul_worstCase_ofSize_le (n : Nat) : n * (ofSize n).worstCase ≤ rangeBudget * rangeBudget := by
  have hside : n * (ofSize n).range ≤ rangeBudget := by
    rw [ofSize]
    split
    · exact Nat.zero_le _
    · exact Nat.mul_div_le rangeBudget n
  calc n * (ofSize n).worstCase = n * (n * (ofSize n).range * (ofSize n).range) := rfl
    _ = n * (ofSize n).range * (n * (ofSize n).range) := by
      rw [Nat.mul_left_comm, Nat.mul_comm n (ofSize n).range, Nat.mul_assoc]
    _ ≤ rangeBudget * rangeBudget := Nat.mul_le_mul hside hside

/-- A size that is allowed for itself has a range to draw from, and cannot overflow with it. -/
theorem range_ofSize_fits {n : Nat} (hpos : 1 ≤ n) (hmax : n ≤ maxSize) :
    1 ≤ (ofSize n).range ∧ (ofSize n).worstCase ≤ maxInt32 := by
  constructor
  · rw [ofSize, if_neg (Nat.ne_of_gt hpos)]
    exact (Nat.one_le_div_iff hpos).mpr (Nat.le_trans hmax (by decide))
  · calc (ofSize n).worstCase ≤ n * (ofSize n).worstCase := Nat.le_mul_of_pos_left _ hpos
      _ ≤ rangeBudget * rangeBudget := mul_worstCase_ofSize_le n
      _ ≤ maxInt32 := by decide

/-- All that can be wrong with a size and its own range is the size. -/
theorem validate_ofSize (n : Nat) :
    (ofSize n).validate =
      if n = 0 then .error .invalidSize
      else if maxSize < n then .error (.sizeTooLarge n maxSize)
      else .ok () := by
  have hsize : (ofSize n).size = n := rfl
  by_cases hzero : n = 0
  · rw [validate, hsize, if_pos hzero, if_pos hzero]
  · by_cases hlarge : maxSize < n
    · rw [validate, hsize, if_neg hzero, if_neg hzero, if_pos hlarge, if_pos hlarge]
    · have hpos : 1 ≤ n := Nat.one_le_iff_ne_zero.mpr hzero
      have hmax : n ≤ maxSize := Nat.le_of_not_lt hlarge
      rw [if_neg hzero, if_neg hlarge]
      exact validate_eq_ok.mpr ⟨hpos, hmax, range_ofSize_fits hpos hmax⟩

/-- **Derived ranges are safe.** The worst case of any size and any range is computed in words, exactly and without
overflow at a step. So is the range of any size, and size times its worst case stays within the square of the budget;
the check lets a size through with this range exactly if it is one of those allowed, and blames the size otherwise. -/
theorem ofSize_safe :
    (∀ (size : UInt64) (range : UInt32), ∃ w, wideWorstCase? size range = some w ∧
      w.toNat = size.toNat * range.toNat * range.toNat ∧
      (Params.mk size.toNat range.toNat).worstCase = w.toNat) ∧
    ∀ size : UInt64,
      (∃ r, wordRange? size = some r ∧ ofSize size.toNat = ⟨size.toNat, r.toNat⟩) ∧
      size.toNat * (ofSize size.toNat).worstCase ≤ rangeBudget * rangeBudget ∧
      ((ofSize size.toNat).validate = .ok () ↔ 1 ≤ size.toNat ∧ size.toNat ≤ maxSize) ∧
      (size.toNat = 0 → (ofSize size.toNat).validate = .error .invalidSize) ∧
      (maxSize < size.toNat → (ofSize size.toNat).validate = .error (.sizeTooLarge size.toNat maxSize)) := by
  refine ⟨fun size range => ?_, fun size => ⟨?_, mul_worstCase_ofSize_le size.toNat, ?_, ?_, ?_⟩⟩
  · obtain ⟨w, hw, hval⟩ := wideWorstCase?_eq size range
    exact ⟨w, hw, hval, hval.symm⟩
  · obtain ⟨r, hr, hrange⟩ := wordRange?_eq size
    exact ⟨r, hr, by rw [hrange]; rfl⟩
  · rw [validate_eq_ok]
    constructor
    · rintro ⟨hpos, hmax, -, -⟩
      exact ⟨hpos, hmax⟩
    · rintro ⟨hpos, hmax⟩
      exact ⟨hpos, hmax, range_ofSize_fits hpos hmax⟩
  · intro hzero
    rw [validate_ofSize, if_pos hzero]
  · intro hlarge
    rw [validate_ofSize, if_neg (Nat.ne_of_gt (Nat.zero_lt_of_lt hlarge)), if_pos hlarge]

end CoreBench.Stimuli.Params
