import CoreBench.Proofs.Stimuli.Product
import CoreBench.Proofs.Stimuli.Rows
import CoreBench.Stimuli.Case

/-!
Generating cases. Parameters that pass their check leave nothing that can go wrong: every element that is drawn
has 32 bits, the cells are as many as a square needs, and no sum of the product can leave the 32 bits.

What is proved:
  * `validate_error`: the ways in which parameters can be refused;
  * `drawPairs_spec`: the elements drawn are as many as asked for, and all in range;
  * `Params.Operand.natAbs_dot_le`: no sum of a product of operands is beyond the worst case;
  * `ofCells_of_valid`: with valid parameters, elements in range make a case, whose product is exact;
  * `of_generate`: a case that is generated holds what has been drawn, and the product that is computed;
  * `generate_exact`: a case is generated exactly if the parameters are valid, and it is in range and exact.
-/

namespace CoreBench.Stimuli

open CoreBench.Random

/-- The elements that a range allows. -/
def InRange (range : Nat) (v : Int32) : Prop :=
  -(range : Int) ≤ v.toInt ∧ v.toInt ≤ (range : Int) - 1

/-! ## Parameters -/

theorem Params.validate_error {p : Params} {e : StimuliError} (h : p.validate = .error e) :
    e = .invalidSize ∨ e = .sizeTooLarge p.size maxSize ∨ e = .invalidRange p.size ∨
      e = .rangeOverflow p.size p.range p.worstCase := by
  unfold Params.validate at h
  split at h
  · exact Or.inl (Except.error.inj h).symm
  · split at h
    · exact Or.inr (Or.inl (Except.error.inj h).symm)
    · split at h
      · exact Or.inr (Or.inr (Or.inl (Except.error.inj h).symm))
      · split at h
        · exact Or.inr (Or.inr (Or.inr (Except.error.inj h).symm))
        · cases h

/-- The range of valid parameters fits with room to spare: even its square does. -/
theorem Params.range_le {p : Params} (h : p.validate = .ok ()) : 1 ≤ p.range ∧ p.range ≤ maxInt32 := by
  obtain ⟨hsize, -, hrange, hworst⟩ := Params.validate_eq_ok.mp h
  refine ⟨hrange, ?_⟩
  calc p.range = 1 * 1 * p.range := by omega
    _ ≤ p.size * p.range * p.range := Nat.mul_le_mul_right _ (Nat.mul_le_mul hsize hrange)
    _ ≤ maxInt32 := hworst

/-! ## Draws -/

theorem inRange_ofInt {range : Nat} {x : Int} (hrange : range ≤ maxInt32)
    (hlo : -(range : Int) ≤ x) (hhi : x < range) : InRange range (Int32.ofInt x) := by
  have hx : (Int32.ofInt x).toInt = x := by
    apply Matrix.toInt_ofInt_of_fits
    constructor
    · omega
    · omega
  rw [InRange, hx]
  exact ⟨hlo, by omega⟩

/-- A value that is drawn from a range that fits is in range. -/
theorem inRange_of_draw {σ : Type} {next : Source σ} {range : Nat} {s t : σ} {x : Int}
    (hrange : 1 ≤ range ∧ range ≤ maxInt32) (h : draw next range s = (some x, t)) :
    InRange range (Int32.ofInt x) := by
  obtain ⟨hlo, h0 | hhi⟩ := draw_mem h
  · omega
  · exact inRange_ofInt hrange.2 hlo hhi

/-- Drawing adds as many elements to each operand as were asked for, all of them in range. -/
theorem drawPairs_spec {σ : Type} {next : Source σ} {range : Nat}
    (hrange : 1 ≤ range ∧ range ≤ maxInt32) :
    ∀ {n : Nat} {a b a' b' : Array Int32} {s t : σ}, (∀ v ∈ a, InRange range v) →
      (∀ v ∈ b, InRange range v) → drawPairs next range a b n s = (some (a', b'), t) →
      (a'.size = a.size + n ∧ ∀ v ∈ a', InRange range v) ∧
        (b'.size = b.size + n ∧ ∀ v ∈ b', InRange range v)
  | 0, _, _, _, _, _, _, ha, hb, h => by
    simp only [drawPairs, Prod.mk.injEq, Option.some.injEq] at h
    obtain ⟨⟨rfl, rfl⟩, -⟩ := h
    exact ⟨⟨rfl, ha⟩, rfl, hb⟩
  | n + 1, a, b, _, _, _, _, ha, hb, h => by
    simp only [drawPairs] at h
    split at h
    · cases h
    · next x u hx =>
      split at h
      · cases h
      · next y w hy =>
        have hpush : ∀ {c : Array Int32} {z : Int}, (∀ v ∈ c, InRange range v) →
            InRange range (Int32.ofInt z) → ∀ v ∈ c.push (Int32.ofInt z), InRange range v := by
          intro c z hc hz v hv
          rcases Array.mem_push.mp hv with hv | rfl
          · exact hc v hv
          · exact hz
        obtain ⟨⟨hna, ha'⟩, hnb, hb'⟩ := drawPairs_spec hrange
          (hpush ha (inRange_of_draw hrange hx)) (hpush hb (inRange_of_draw hrange hy)) h
        rw [Array.size_push] at hna hnb
        exact ⟨⟨by omega, ha'⟩, by omega, hb'⟩

/-! ## Cases -/

theorem natAbs_le_of_inRange {range : Nat} {v : Int32} (h : InRange range v) :
    v.toInt.natAbs ≤ range := by
  obtain ⟨hlo, hhi⟩ := h
  omega

/-- A matrix that parameters allow for as an operand. -/
structure Params.Operand (p : Params) (m : Matrix) : Prop where
  size_eq : m.size = p.size
  elements : ∀ v ∈ m.cells, InRange p.range v

/-- No sum of a product of operands is beyond the worst case. -/
theorem Params.Operand.natAbs_dot_le {p : Params} {a b : Matrix} (ha : p.Operand a)
    (hb : p.Operand b) (row col : Nat) : (Matrix.dot a b row col p.size).natAbs ≤ p.worstCase :=
  Matrix.natAbs_dot_le (fun v hv => natAbs_le_of_inRange (ha.elements v hv))
    (fun v hv => natAbs_le_of_inRange (hb.elements v hv)) row col p.size

/-- A case as its parameters have it: operands of their size with elements in range, and the exact product,
whose elements stay within what the parameters allow for. -/
structure Case.Meets (c : Case) (p : Params) : Prop where
  params_eq : c.params = p
  sizes : c.a.size = p.size ∧ c.b.size = p.size ∧ c.expected.size = p.size
  counts : c.a.cells.size = p.size * p.size ∧ c.b.cells.size = p.size * p.size ∧
    c.expected.cells.size = p.size * p.size
  elements : ∀ v, v ∈ c.a.cells ∨ v ∈ c.b.cells →
    -(p.range : Int) ≤ v.toInt ∧ v.toInt ≤ (p.range : Int) - 1
  product : ∀ i j, i < p.size → j < p.size → ∃ v, c.expected.get? i j = some v ∧
    v.toInt = ∑ k ∈ Finset.range p.size, c.a.entry i k * c.b.entry k j ∧
    v.toInt.natAbs ≤ p.worstCase

/-- With valid parameters, elements in range make a case that meets them. -/
theorem ofCells_of_valid {p : Params} (hp : p.validate = .ok ()) {a b : Array Int32}
    (hna : a.size = p.size * p.size) (hnb : b.size = p.size * p.size)
    (ha : ∀ v ∈ a, InRange p.range v) (hb : ∀ v ∈ b, InRange p.range v) :
    ∃ c : Case, Case.ofCells p a b = .ok c ∧ c.Meets p := by
  obtain ⟨-, hmax, -, hworst⟩ := Params.validate_eq_ok.mp hp
  let ma : Matrix := ⟨p.size, a, hna⟩
  let mb : Matrix := ⟨p.size, b, hnb⟩
  have hdot : ∀ row col, (Matrix.dot ma mb row col p.size).natAbs ≤ p.worstCase :=
    Params.Operand.natAbs_dot_le (a := ma) (b := mb) ⟨rfl, ha⟩ ⟨rfl, hb⟩
  obtain ⟨e, he, hsize, hcells⟩ := Matrix.multiply_of_fits (a := ma) (b := mb) rfl
    fun row col _ _ => Matrix.fits_of_natAbs_le (Nat.le_trans (hdot row col) hworst)
  refine ⟨⟨p, ma, mb, e⟩, ?_, rfl, ⟨rfl, rfl, hsize⟩, ⟨hna, hnb, ?_⟩, fun v hv => ?_,
    fun i j hi hj => ?_⟩
  · simp only [Case.ofCells, Matrix.ofCells?_of_size hmax hna, Matrix.ofCells?_of_size hmax hnb,
      bind, Except.bind]
    rw [show Matrix.multiply ⟨p.size, a, hna⟩ ⟨p.size, b, hnb⟩ = .ok e from he]
  · rw [e.square, hsize]
  · exact hv.elim (ha v) (hb v)
  · obtain ⟨v, hv, hsum⟩ := hcells i j hi hj
    exact ⟨v, hv, hsum.trans (Matrix.dot_eq_sum ma mb i j p.size), hsum ▸ hdot i j⟩

/-- What a case that is made of cells holds: these cells, and the product that is computed. -/
theorem of_ofCells {p : Params} {a b : Array Int32} {c : Case} (h : Case.ofCells p a b = .ok c) :
    c.a.cells = a ∧ c.b.cells = b ∧ c.a.multiply c.b = .ok c.expected := by
  simp only [Case.ofCells, bind, Except.bind] at h
  split at h
  · cases h
  · next ma ha =>
    split at h
    · cases h
    · next mb hb =>
      split at h
      · cases h
      · next hproduct =>
        obtain rfl := Except.ok.inj h
        exact ⟨(Matrix.of_ofCells? ha).2, (Matrix.of_ofCells? hb).2, hproduct⟩

/-- A case that is generated holds what has been drawn, and the product that is computed. -/
theorem of_generate {σ : Type} {next : Source σ} {p : Params} {s : σ} {c : Case}
    (h : (Case.generate next p s).1 = .ok c) :
    p.validate = .ok () ∧ (∃ t, drawPairs next p.range #[] #[] (p.size * p.size) s = (some (c.a.cells, c.b.cells), t)) ∧
      c.a.multiply c.b = .ok c.expected := by
  rw [Case.generate] at h
  split at h
  · cases h
  · next hvalid =>
    split at h
    · cases h
    · next a b t hdraws =>
      obtain ⟨rfl, rfl, hproduct⟩ := of_ofCells h
      exact ⟨hvalid, ⟨t, hdraws⟩, hproduct⟩

theorem multiply_of_generate {σ : Type} {next : Source σ} {p : Params} {s : σ} {c : Case}
    (h : (Case.generate next p s).1 = .ok c) : c.a.multiply c.b = .ok c.expected :=
  (of_generate h).2.2

/-- What generating comes to: the error of the parameters, or a case that meets them. -/
theorem generate_cases {σ : Type} {next : Source σ} {p : Params} {s : σ}
    (hdraws : p.validate = .ok () →
      (drawPairs next p.range #[] #[] (p.size * p.size) s).1.isSome = true) :
    (∃ e, p.validate = .error e ∧ (Case.generate next p s).1 = .error e) ∨
      p.validate = .ok () ∧ ∃ c : Case, (Case.generate next p s).1 = .ok c ∧ c.Meets p := by
  cases hp : p.validate with
  | error e => exact Or.inl ⟨e, rfl, by rw [Case.generate_invalid hp]⟩
  | ok u =>
    refine Or.inr ⟨rfl, ?_⟩
    have hsome := hdraws hp
    rw [Case.generate, hp]
    simp only
    split
    · next t h => rw [h] at hsome; cases hsome
    · next a b t h =>
      have hempty : ∀ v ∈ (#[] : Array Int32), InRange p.range v := fun v hv =>
        absurd hv (Array.not_mem_empty v)
      obtain ⟨⟨hna, ha⟩, hnb, hb⟩ := drawPairs_spec (Params.range_le hp) hempty hempty h
      rw [Array.size_empty, Nat.zero_add] at hna hnb
      exact ofCells_of_valid hp hna hnb ha hb

/-- **Generation is safe and exact.** As far as the source gives words to draw from, a case is generated
exactly if the parameters are valid, and refused with their error if not. What is generated meets the
parameters; the two ends of their range have 32 bits, with something between them to draw; and neither the
number of cells nor a sum of the product is ever what is wrong. -/
theorem generate_exact {σ : Type} (next : Source σ) (p : Params) (s : σ)
    (hdraws : p.validate = .ok () →
      (drawPairs next p.range #[] #[] (p.size * p.size) s).1.isSome = true) :
    (∀ e, (Case.generate next p s).1 = .error e ↔ p.validate = .error e) ∧
    (∀ c, (Case.generate next p s).1 = .ok c →
      c.Meets p ∧ p.worstCase ≤ maxInt32 ∧ (Int32.ofNat p.range).toInt = p.range ∧
        (-Int32.ofNat p.range).toInt = -p.range ∧ -Int32.ofNat p.range < Int32.ofNat p.range) ∧
    ∀ e, (Case.generate next p s).1 = .error e →
      (∀ row col v, e ≠ .overflow row col v) ∧ (∀ n m k, e ≠ .invalidLength n m k) ∧
      (∀ n, e ≠ .dimensionOverflow n) ∧ ∀ n m, e ≠ .dimensionMismatch n m := by
  have hiff : ∀ e, (Case.generate next p s).1 = .error e ↔ p.validate = .error e := by
    intro e
    rcases generate_cases hdraws with ⟨e', hp, hg⟩ | ⟨hp, c, hg, -⟩
    · rw [hp, hg, Except.error.injEq, Except.error.injEq]
    · rw [hp, hg]
      constructor <;> intro h <;> cases h
  refine ⟨hiff, fun c hc => ?_, fun e he => ?_⟩
  · rcases generate_cases hdraws with ⟨e', -, hg⟩ | ⟨hp, c', hg, hmeets⟩
    · rw [hg] at hc
      cases hc
    · rw [hg] at hc
      obtain rfl := Except.ok.inj hc
      obtain ⟨hpos, hfit⟩ := Params.range_le hp
      have hhigh : (Int32.ofNat p.range).toInt = p.range :=
        Int32.toInt_ofNat_of_lt (Nat.lt_succ_of_le hfit)
      have hlow : (-Int32.ofNat p.range).toInt = -p.range := by
        rw [← Int32.ofInt_eq_ofNat, ← Int32.ofInt_neg]
        apply Matrix.toInt_ofInt_of_fits
        constructor <;> omega
      refine ⟨hmeets, (Params.validate_eq_ok.mp hp).2.2.2, hhigh, hlow, ?_⟩
      rw [Int32.lt_iff_toInt_lt, hlow, hhigh]
      omega
  · -- What fails is the parameters, and none of the ways in which they can is one of those.
    rcases Params.validate_error ((hiff e).mp he) with rfl | rfl | rfl | rfl <;>
      refine ⟨?_, ?_, ?_, ?_⟩ <;> intros <;> intro h <;> cases h

/-- A source that counts in large steps gives words enough for matrices of two rows. -/
theorem generate_exact_counting :
    let next : Source Nat := fun n => (UInt32.ofNat (n * 1000000007), n + 1)
    (Params.validate ⟨2, 3⟩ = .ok () → (drawPairs next 3 #[] #[] (2 * 2) 1).1.isSome = true) ∧
      ∃ c : Case, (Case.generate next ⟨2, 3⟩ 1).1 = .ok c ∧ c.Meets ⟨2, 3⟩ := by
  intro next
  have hdraws : Params.validate ⟨2, 3⟩ = .ok () →
      (drawPairs next 3 #[] #[] (2 * 2) 1).1.isSome = true := fun _ => by decide
  have h := generate_exact next ⟨2, 3⟩ 1 hdraws
  refine ⟨hdraws, ?_⟩
  cases hg : (Case.generate next ⟨2, 3⟩ 1).1 with
  | error e =>
    have hvalid : Params.validate ⟨2, 3⟩ = .ok () := Params.validate_eq_ok.mpr (by decide)
    cases hvalid.symm.trans ((h.1 e).mp hg)
  | ok c => exact ⟨c, rfl, (h.2.1 c hg).1⟩

end CoreBench.Stimuli
