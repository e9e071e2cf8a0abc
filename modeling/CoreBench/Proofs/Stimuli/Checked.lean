import CoreBench.Proofs.Stimuli.Product

/-!
Products with everything in place that could break: elements are named by their positions, and sums are held in 128
bits. A computation traps where such a name names nothing or a sum is too large.

What is proved:
  * `dotChecked_eq`: sums along a row and a column do not trap, at no place on the way;
  * `multiplyChecked_eq`: products are made without a trap, as long as 64 bits can hold the size.
-/

namespace CoreBench.Stimuli

/-- How a computation stops short: it breaks, or it comes to an error. -/
inductive Stop (ε : Type) where
  | trap
  | fault (e : ε)

/-- The same with another form of errors. -/
def Stop.map {ε δ : Type} (t : ε → δ) : Stop ε → Stop δ
  | .trap => .trap
  | .fault e => .fault (t e)

/-- A value that has to be there. -/
def present {ε α : Type} : Option α → Except (Stop ε) α
  | none => .error .trap
  | some v => .ok v

namespace Matrix

/-- An integer in 128 bits. -/
def wide? (v : Int) : Option Int :=
  if -2 ^ 127 ≤ v ∧ v < 2 ^ 127 then some v else none

/-- The sum over the first `n` places of the products along a row and a column, place by place. -/
def dotChecked (a b : Matrix) (row col : Nat) : Nat → Except (Stop StimuliError) Int
  | 0 => .ok 0
  | k + 1 => do
    let acc ← dotChecked a b row col k
    let x ← present (a.get? row k)
    let y ← present (b.get? k col)
    present (wide? (acc + x.toInt * y.toInt))

/-- An element of the product of two matrices, by its position among the cells. -/
def productCellChecked (a b : Matrix) (i : Nat) : Except (Stop StimuliError) Int32 := do
  let v ← dotChecked a b (i / a.size) (i % a.size) a.size
  (narrow (i / a.size) (i % a.size) v).mapError .fault

/-- The product of two matrices. -/
def multiplyChecked (a b : Matrix) : Except (Stop StimuliError) Matrix :=
  if a.size = b.size then
    match h : collect (productCellChecked a b) #[] (a.size * a.size) with
    | .error e => .error e
    | .ok cells => .ok ⟨a.size, cells, by simpa using collect_size h⟩
  else .error (.fault (.dimensionMismatch a.size b.size))

/-! ## Products -/

theorem get?_of_lt {m : Matrix} {row col : Nat} (hrow : row < m.size) (hcol : col < m.size) :
    ∃ v, m.get? row col = some v ∧ v.toInt = m.entry row col := by
  have hlt : row * m.size + col < m.cells.size := by
    rw [m.square]
    exact (position_lt hrow hcol).1
  refine ⟨m.cells[row * m.size + col], Array.getElem?_eq_getElem hlt, ?_⟩
  rw [entry, Array.getD_eq_getD_getElem?, Array.getElem?_eq_getElem hlt]
  rfl

/-- No element of 32 bits is further from 0 than the least one. -/
theorem natAbs_toInt_le (v : Int32) : v.toInt.natAbs ≤ 2 ^ 31 := by
  have hlo := v.le_toInt
  have hhi := v.toInt_lt
  omega

/-- A sum of as many products as 64 bits can count has room in 128 bits. -/
theorem wide?_dot (a b : Matrix) (row col : Nat) {k : Nat} (hk : k ≤ max64) :
    wide? (dot a b row col k) = some (dot a b row col k) := by
  have hle : (dot a b row col k).natAbs ≤ max64 * 2 ^ 31 * 2 ^ 31 :=
    calc (dot a b row col k).natAbs ≤ k * 2 ^ 31 * 2 ^ 31 :=
          natAbs_dot_le (fun v _ => natAbs_toInt_le v) (fun v _ => natAbs_toInt_le v) row col k
      _ ≤ max64 * 2 ^ 31 * 2 ^ 31 := Nat.mul_le_mul_right _ (Nat.mul_le_mul_right _ hk)
  rw [max64] at hle
  exact if_pos (by omega)

variable {a b : Matrix}

/-- A sum along a row and a column that are there does not trap. -/
theorem dotChecked_eq (hsize : a.size = b.size) (hmax : a.size ≤ max64) {row col : Nat} (hrow : row < a.size)
    (hcol : col < a.size) {k : Nat} (hk : k ≤ a.size) :
    dotChecked a b row col k = .ok (dot a b row col k) := by
  induction k with
  | zero => rfl
  | succ k ih =>
    obtain ⟨x, hx, hx'⟩ := get?_of_lt (m := a) hrow (show k < a.size from hk)
    obtain ⟨y, hy, hy'⟩ := get?_of_lt (m := b) (show k < b.size by omega) (show col < b.size by omega)
    have hwide := wide?_dot a b row col (Nat.le_trans hk hmax)
    rw [dot, ← hx', ← hy'] at hwide ⊢
    rw [dotChecked, ih (Nat.le_of_succ_le hk), hx, hy]
    show present (wide? _) = _
    rw [hwide]
    rfl

theorem productCellChecked_eq (hsize : a.size = b.size) (hmax : a.size ≤ max64) {i : Nat}
    (hi : i < a.size * a.size) : productCellChecked a b i = (productCell a b i).mapError .fault := by
  obtain ⟨hrow, hcol⟩ := div_mod_lt hi
  rw [productCellChecked, dotChecked_eq hsize hmax hrow hcol (Nat.le_refl _)]
  rfl

theorem multiply_size {c : Matrix} (h : multiply a b = .ok c) : c.size = a.size := by
  rw [multiply] at h
  split at h
  · split at h
    · cases h
    · obtain rfl := Except.ok.inj h
      rfl
  · cases h

/-- Cells that are the same but for the form of their errors are collected to the same. -/
theorem collect_mapError {ε δ : Type} {f : Nat → Except ε Int32} {g : Nat → Except δ Int32} (t : ε → δ)
    {acc : Array Int32} {n : Nat}
    (h : ∀ i, acc.size ≤ i → i < acc.size + n → g i = (f i).mapError t) :
    collect g acc n = (collect f acc n).mapError t := by
  induction n generalizing acc with
  | zero => rfl
  | succ n ih =>
    rw [collect, collect, h acc.size (Nat.le_refl _) (by omega)]
    cases hf : f acc.size with
    | error e => rfl
    | ok c =>
      refine ih fun i hlo hhi => h i ?_ ?_
      · rw [Array.size_push] at hlo
        omega
      · rw [Array.size_push] at hhi
        omega

/-- Products are made without a trap. -/
theorem multiplyChecked_eq (hmax : a.size ≤ max64) : multiplyChecked a b = (multiply a b).mapError .fault := by
  rw [multiplyChecked, multiply]
  by_cases hsize : a.size = b.size
  · rw [if_pos hsize, if_pos hsize]
    have hcells : collect (productCellChecked a b) #[] (a.size * a.size)
        = (collect (productCell a b) #[] (a.size * a.size)).mapError .fault := by
      refine collect_mapError Stop.fault fun i _ hhi => productCellChecked_eq hsize hmax ?_
      simpa using hhi
    split
    · next e he =>
      rw [he] at hcells
      split
      · next e' he' =>
        rw [he'] at hcells
        exact congrArg Except.error (Except.error.inj hcells)
      · next cells hok =>
        rw [hok] at hcells
        cases hcells
    · next cells hok =>
      rw [hok] at hcells
      split
      · next e' he' =>
        rw [he'] at hcells
        cases hcells
      · next cells' hok' =>
        rw [hok'] at hcells
        obtain rfl := Except.ok.inj hcells
        rfl
  · rw [if_neg hsize, if_neg hsize]
    rfl

end Matrix

end CoreBench.Stimuli
