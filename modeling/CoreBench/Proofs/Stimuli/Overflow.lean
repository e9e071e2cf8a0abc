import CoreBench.Proofs.Stimuli.Generation

/-!
The check of parameters against products. Parameters are refused for their range exactly if there are operands
that they allow for and whose product leaves the 32 bits.

One direction is a bound on every sum of every product. For the other one, the operands are constant: all of
their elements are as far below 0 as the range and the 32 bits allow, so that no two terms of a sum cancel and
already the first cell of the product is too large.

What is proved:
  * `multiply_of_operands`: below the bound, every product is made;
  * `multiply_lowest`: beyond it, the product of the constant operands is not;
  * `validate_exact`: the check refuses a range exactly if some product can overflow.
-/

namespace CoreBench.Stimuli

namespace Matrix

/-- The matrix with the same element in all of its cells. -/
def constant (n : Nat) (v : Int32) : Matrix :=
  ⟨n, Array.replicate (n * n) v, Array.size_replicate⟩

theorem entry_constant {n row col : Nat} (hrow : row < n) (hcol : col < n) (v : Int32) :
    (constant n v).entry row col = v.toInt := by
  obtain ⟨hlt, -, -⟩ := position_lt hrow hcol
  have hcell : (Array.replicate (n * n) v).getD (row * n + col) 0 = v := by
    rw [Array.getD_eq_getD_getElem?, Array.getElem?_replicate, if_pos hlt]
    rfl
  exact congrArg Int32.toInt hcell

/-- All terms of a sum of constant operands are the same square. -/
theorem dot_constant {n row col : Nat} (hrow : row < n) (hcol : col < n) (v : Int32) :
    ∀ {k : Nat}, k ≤ n →
      dot (constant n v) (constant n v) row col k = k * (v.toInt * v.toInt) := by
  intro k
  induction k with
  | zero =>
    intro _
    simp [dot]
  | succ k ih =>
    intro hk
    have hlt : k < n := hk
    rw [dot, ih (Nat.le_of_lt hlt), entry_constant hrow hlt, entry_constant hlt hcol,
      Int.natCast_add, Int.add_mul, Int.natCast_one, Int.one_mul]

end Matrix

namespace Params

variable {p : Params}

/-- The least element of a range: 32 bits may cut it short. -/
def lowest (range : Nat) : Int32 :=
  Int32.ofInt (-(min range (maxInt32 + 1) : Nat))

theorem toInt_lowest (range : Nat) : (lowest range).toInt = -(min range (maxInt32 + 1) : Nat) := by
  apply Matrix.toInt_ofInt_of_fits
  constructor <;> omega

theorem inRange_lowest {range : Nat} (h : 1 ≤ range) : InRange range (lowest range) := by
  rw [InRange, toInt_lowest]
  constructor <;> omega

theorem operand_lowest (h : 1 ≤ p.range) :
    p.Operand (Matrix.constant p.size (lowest p.range)) := by
  refine ⟨rfl, ?_⟩
  intro v hv
  obtain ⟨-, rfl⟩ := Array.mem_replicate.mp hv
  exact inRange_lowest h

/-- A sum of the squares of the least elements is beyond 32 bits too: where these cut the elements short, one
square is. -/
theorem lt_lowest_sum (hpos : 1 ≤ p.size) (hworst : maxInt32 < p.worstCase) :
    (maxInt32 : Int) < p.size * ((lowest p.range).toInt * (lowest p.range).toInt) := by
  rw [toInt_lowest, Int.neg_mul_neg, ← Int.natCast_mul, ← Int.natCast_mul, ← Nat.mul_assoc]
  apply Int.ofNat_lt.mpr
  rcases Nat.le_total p.range (maxInt32 + 1) with hle | hle
  · rw [Nat.min_eq_left hle]
    exact hworst
  · rw [Nat.min_eq_right hle]
    calc maxInt32 < 1 * (maxInt32 + 1) * (maxInt32 + 1) := by decide
      _ ≤ p.size * (maxInt32 + 1) * (maxInt32 + 1) :=
        Nat.mul_le_mul_right _ (Nat.mul_le_mul_right _ hpos)

theorem multiply_of_operands (hworst : p.worstCase ≤ maxInt32) {a b : Matrix} (ha : p.Operand a)
    (hb : p.Operand b) : ∃ c, a.multiply b = .ok c := by
  have hfits : ∀ row col, Matrix.Fits (Matrix.dot a b row col a.size) := by
    intro row col
    apply Matrix.fits_of_natAbs_le
    rw [ha.size_eq]
    exact Nat.le_trans (ha.natAbs_dot_le hb row col) hworst
  obtain ⟨c, hc, -, -⟩ := Matrix.multiply_of_fits (ha.size_eq.trans hb.size_eq.symm)
    fun row col _ _ => hfits row col
  exact ⟨c, hc⟩

theorem multiply_lowest (hpos : 1 ≤ p.size) (hworst : maxInt32 < p.worstCase) :
    ∃ row col v, (Matrix.constant p.size (lowest p.range)).multiply
      (Matrix.constant p.size (lowest p.range)) = .error (.overflow row col v) := by
  cases h : (Matrix.constant p.size (lowest p.range)).multiply
      (Matrix.constant p.size (lowest p.range)) with
  | error e =>
    obtain ⟨i, -, -, rfl, -⟩ := Matrix.multiply_error rfl h
    exact ⟨_, _, _, rfl⟩
  | ok c =>
    -- A product would have a first cell, and what belongs there does not fit.
    obtain ⟨-, hle⟩ := Matrix.fits_of_multiply h hpos hpos
    have hsum := Matrix.dot_constant hpos hpos (lowest p.range) (Nat.le_refl p.size)
    have hlt := lt_lowest_sum hpos hworst
    rw [← hsum] at hlt
    exact absurd hlt (Int.not_lt.mpr hle)

/-- **The check is exact.** Of the sizes and ranges that are not refused for themselves, none is refused without
operands whose product overflows, and none is let through with such operands. -/
theorem validate_exact (p : Params) (hpos : 1 ≤ p.size) (hmax : p.size ≤ maxSize)
    (hrange : 1 ≤ p.range) :
    (p.validate = .error (.rangeOverflow p.size p.range p.worstCase) ↔
      ∃ a b, p.Operand a ∧ p.Operand b ∧ ∃ row col v, a.multiply b = .error (.overflow row col v)) ∧
    (p.validate = .ok () ↔ ∀ a b, p.Operand a → p.Operand b → ∃ c, a.multiply b = .ok c) := by
  rcases Nat.lt_or_ge maxInt32 p.worstCase with hworst | hworst
  · have hrefused : p.validate = .error (.rangeOverflow p.size p.range p.worstCase) := by
      rw [validate, if_neg (by omega), if_neg (by omega), if_neg (by omega), if_pos hworst]
    have hoperand := operand_lowest hrange
    obtain ⟨row, col, v, hover⟩ := multiply_lowest hpos hworst
    constructor
    · exact ⟨fun _ => ⟨_, _, hoperand, hoperand, row, col, v, hover⟩, fun _ => hrefused⟩
    · rw [hrefused]
      constructor
      · intro h
        cases h
      · intro h
        obtain ⟨c, hc⟩ := h _ _ hoperand hoperand
        rw [hover] at hc
        cases hc
  · have hvalid : p.validate = .ok () := validate_eq_ok.mpr ⟨hpos, hmax, hrange, hworst⟩
    constructor
    · rw [hvalid]
      constructor
      · intro h
        cases h
      · rintro ⟨a, b, ha, hb, row, col, v, hover⟩
        obtain ⟨c, hc⟩ := multiply_of_operands hworst ha hb
        rw [hover] at hc
        cases hc
    · exact ⟨fun _ a b ha hb => multiply_of_operands hworst ha hb, fun _ => hvalid⟩

/-- Two rows, at the range where the worst sum is one more than 32 bits hold, and at the one below. -/
theorem validate_exact_boundary :
    (1 ≤ 2 ∧ 2 ≤ maxSize ∧ 1 ≤ 0x7FFF ∧ Params.worstCase ⟨2, 0x8000⟩ = maxInt32 + 1) ∧
      (∃ a b, Params.Operand ⟨2, 0x8000⟩ a ∧ Params.Operand ⟨2, 0x8000⟩ b ∧
        ∃ row col v, a.multiply b = .error (.overflow row col v)) ∧
      ∀ a b, Params.Operand ⟨2, 0x7FFF⟩ a → Params.Operand ⟨2, 0x7FFF⟩ b →
        ∃ c, a.multiply b = .ok c := by
  refine ⟨by decide, ?_, ?_⟩
  · apply (validate_exact ⟨2, 0x8000⟩ (by decide) (by decide) (by decide)).1.mp
    rfl
  · apply (validate_exact ⟨2, 0x7FFF⟩ (by decide) (by decide) (by decide)).2.mp
    rfl

end Params

end CoreBench.Stimuli
