import CoreBench.Proofs.Stimuli.Exact
import CoreBench.Proofs.Stimuli.Generation
import CoreBench.Proofs.Stimuli.Header.Check

/-!
What the check of a header decides. Of a header whose matrices have the size that it says, the check finds out whether
the product in it is the exact product of its operands; and if not, it names the first sum that does not fit, or else
the first cell that differs, in the order of rows.

What is proved:
  * `verify_outcome`: what a check comes to, in three cases;
  * `verify_eq_ok_iff`, `verify_eq_overflow_iff`, `verify_eq_mismatch_iff`: when it comes to each of them;
  * `verify_iff_holds`: for the operands of a case that was generated, a header passes exactly if it holds the case;
  * `verify_decides`: all of this of any header.
-/

namespace CoreBench.Stimuli.Header

open CoreBench.Random CoreBench.Stimuli.Matrix

/-- Whether the product in a header has another element in a cell than the exact product of its operands. -/
def Differs (h : Header) (row col : Nat) : Prop :=
  ∃ e, h.expected.get? row col = some e ∧ e.toInt ≠ h.a.exactSum h.b row col

/-- What a check comes to, and why: the product is the exact one, a sum does not fit, or a cell differs. -/
inductive Outcome (h : Header) : Except StimuliError Unit → Prop
  | same : IsProduct h.a h.b h.expected → Outcome h (.ok ())
  | beyond {row col : Nat} : h.a.FirstBeyond h.b row col →
      Outcome h (.error (.overflow row col (h.a.exactSum h.b row col)))
  | differs {c : Matrix} {row col : Nat} {e v : Int32} : IsProduct h.a h.b c → FirstCell h.size h.Differs row col →
      h.expected.get? row col = some e → v.toInt = h.a.exactSum h.b row col →
      Outcome h (.error (.mismatch row col e v))

section

variable {h : Header} (ha : h.a.size = h.size) (hb : h.b.size = h.size) (hexpected : h.expected.size = h.size)

include ha in
/-- The element of a product at a position among the cells. -/
theorem element_of_position {c : Matrix} (hc : IsProduct h.a h.b c) {i : Nat} (hi : i < h.size * h.size) :
    ∃ v, c.cells[i]? = some v ∧ v.toInt = h.a.exactSum h.b (i / h.size) (i % h.size) := by
  obtain ⟨hrow, hcol⟩ := div_mod_lt hi
  have hget : c.get? (i / h.size) (i % h.size) = c.cells[i]? := by
    rw [← ha, ← hc.size_eq, get?_position]
  rw [← hget]
  exact hc.elements _ _ (by omega) (by omega)

include ha hexpected in
/-- Comparing the exact product with the one in the header finds out whether they are the same. -/
theorem compareFrom_outcome {c : Matrix} (hc : IsProduct h.a h.b c) :
    ∃ r, h.compareFrom c 0 (h.size * h.size) = some r ∧ Outcome h r := by
  have hcsize : c.size = h.size := hc.size_eq.trans ha
  rcases compareFrom_cases (i := 0) hexpected hcsize (Nat.le_of_eq (Nat.zero_add _)) with
    ⟨hok, hsame⟩ | ⟨i, e, v, -, hi, herror, he, hv, hne, hsame⟩
  · have hcells : c = h.expected := by
      apply ext_get? (hcsize.trans hexpected.symm)
      intro row col hrow hcol
      obtain ⟨hlt, -, -⟩ := position_lt hrow hcol
      rw [get?, get?, hexpected, ← hcsize]
      apply (hsame _ (Nat.zero_le _) _).symm
      rw [← hcsize]
      omega
    exact ⟨_, hok, .same (hcells ▸ hc)⟩
  · have hlt : i < h.size * h.size := by omega
    have hget : ∀ k, h.expected.get? (k / h.size) (k % h.size) = h.expected.cells[k]? := by
      intro k
      rw [← hexpected, get?_position]
    obtain ⟨v', hv', hsum⟩ := element_of_position ha hc hlt
    obtain rfl : v = v' := Option.some.inj (hv.symm.trans hv')
    refine ⟨_, herror, .differs hc (firstCell_of_position hlt ?_ ?_) ((hget i).trans he) hsum⟩
    · refine ⟨e, (hget i).trans he, fun heq => hne ?_⟩
      exact Int32.toInt_inj.mp (heq.trans hsum.symm)
    · -- Ahead of it the cells are those of the product, so their elements are exact.
      intro k hk hdiffers
      obtain ⟨e', he', hne'⟩ := hdiffers
      obtain ⟨w, hw, hsum'⟩ := element_of_position ha hc (Nat.lt_trans hk hlt)
      rw [hget, hsame k (Nat.zero_le k) hk, hw] at he'
      obtain rfl := Option.some.inj he'
      exact hne' hsum'

include ha hb hexpected in
theorem verify_outcome : ∃ r, h.verify = some r ∧ Outcome h r := by
  have hsize : h.a.size = h.b.size := ha.trans hb.symm
  rw [verify]
  cases hproduct : h.a.multiply h.b with
  | error err =>
    obtain ⟨row, col, hfirst, rfl⟩ := (multiply_eq_error_iff hsize).mp hproduct
    exact ⟨_, rfl, .beyond hfirst⟩
  | ok c => exact compareFrom_outcome ha hexpected ((multiply_eq_ok_iff hsize).mp hproduct)

include ha hb hexpected in
theorem outcome_of_verify {r : Except StimuliError Unit} (hr : h.verify = some r) : Outcome h r := by
  obtain ⟨r', hr', houtcome⟩ := verify_outcome ha hb hexpected
  obtain rfl := Option.some.inj (hr.symm.trans hr')
  exact houtcome

include ha hb hexpected in
theorem verify_eq_ok_iff : h.verify = some (.ok ()) ↔ IsProduct h.a h.b h.expected := by
  constructor
  · intro hok
    cases outcome_of_verify ha hb hexpected hok with
    | same hproduct => exact hproduct
  · intro hproduct
    exact verify_of_product hexpected ((multiply_eq_ok_iff (ha.trans hb.symm)).mpr hproduct)

include ha hb hexpected in
/-- A sum that does not fit is reported whatever product the header has. -/
theorem verify_eq_overflow_iff {row col : Nat} {v : Int} :
    h.verify = some (.error (.overflow row col v)) ↔ h.a.FirstBeyond h.b row col ∧ v = h.a.exactSum h.b row col := by
  constructor
  · intro hover
    cases outcome_of_verify ha hb hexpected hover with
    | beyond hfirst => exact ⟨hfirst, rfl⟩
  · intro ⟨hfirst, hv⟩
    have herror := (multiply_eq_error_iff (ha.trans hb.symm)).mpr ⟨row, col, hfirst, rfl⟩
    rw [verify, herror, hv]

include ha hb hexpected in
theorem verify_eq_mismatch_iff {row col : Nat} {e v : Int32} :
    h.verify = some (.error (.mismatch row col e v)) ↔
      (∀ i j, i < h.size → j < h.size → Fits (h.a.exactSum h.b i j)) ∧ FirstCell h.size h.Differs row col ∧
      h.expected.get? row col = some e ∧ v.toInt = h.a.exactSum h.b row col := by
  constructor
  · intro hmismatch
    cases outcome_of_verify ha hb hexpected hmismatch with
    | differs hc hfirst he hv =>
      exact ⟨fun i j hi hj => hc.fits (ha.symm ▸ hi) (ha.symm ▸ hj), hfirst, he, hv⟩
  · intro ⟨hfits, hfirst, he, hv⟩
    obtain ⟨r, hr, houtcome⟩ := verify_outcome ha hb hexpected
    rw [hr]
    cases houtcome with
    | same hproduct =>
      -- The cell that differs would be one of the product.
      obtain ⟨e', he', hne⟩ := hfirst.holds
      obtain ⟨w, hw, hsum⟩ := hproduct.elements row col (ha.symm ▸ hfirst.row_lt) (ha.symm ▸ hfirst.col_lt)
      obtain rfl := Option.some.inj (he'.symm.trans hw)
      exact absurd hsum hne
    | beyond hbeyond =>
      exact absurd (hfits _ _ (ha ▸ hbeyond.row_lt) (ha ▸ hbeyond.col_lt)) hbeyond.holds
    | differs _ hfirst' he' hv' =>
      obtain ⟨rfl, rfl⟩ := hfirst'.unique hfirst
      obtain rfl := Option.some.inj (he.symm.trans he')
      obtain rfl := Int32.toInt_inj.mp (hv.trans hv'.symm)
      rfl

include hb hexpected in
/-- Passing the check, with the operands of a case that was generated, is holding the case. -/
theorem verify_iff_holds {σ : Type} {next : Source σ} {p : Params} {s : σ} {c : Case}
    (hc : (Case.generate next p s).1 = .ok c) (hsize : h.size = c.params.size) (hleft : h.a = c.a)
    (hright : h.b = c.b) (ha : h.a.size = h.size) : h.verify = some (.ok ()) ↔ h.holds c = true := by
  have hone : h.a.size = h.b.size := ha.trans hb.symm
  have hproduct : h.a.multiply h.b = .ok c.expected := by
    rw [hleft, hright]
    exact multiply_of_generate hc
  rw [verify_eq_ok_iff ha hb hexpected, ← multiply_eq_ok_iff hone, hproduct]
  simp [holds, hsize, hleft, hright, eq_comm]

end

/-- **A check decides the product.** It comes to an end of one of three kinds. A header passes exactly if every element
of its product is the exact sum; it is refused for a sum exactly if some sum does not fit, whatever its product is, and
then for the first one; and otherwise it is refused for its first cell that differs, with the element that it has there
and the one that there should be. If its operands are those of a case that was generated, it passes exactly if it holds
the case. -/
theorem verify_decides (h : Header) (ha : h.a.size = h.size) (hb : h.b.size = h.size)
    (hexpected : h.expected.size = h.size) :
    (h.verify = some (.ok ()) ∨ (∃ row col v, h.verify = some (.error (.overflow row col v))) ∨
      ∃ row col e v, h.verify = some (.error (.mismatch row col e v))) ∧
    (h.verify = some (.ok ()) ↔ ∀ row col, row < h.size → col < h.size →
      ∃ v, h.expected.get? row col = some v ∧ v.toInt = h.a.exactSum h.b row col) ∧
    ((∃ row col v, h.verify = some (.error (.overflow row col v))) ↔
      ∃ row col, row < h.size ∧ col < h.size ∧ ¬ Fits (h.a.exactSum h.b row col)) ∧
    (∀ row col v, h.verify = some (.error (.overflow row col v)) ↔
      FirstCell h.size (fun i j => ¬ Fits (h.a.exactSum h.b i j)) row col ∧ v = h.a.exactSum h.b row col) ∧
    (∀ row col e v, h.verify = some (.error (.mismatch row col e v)) ↔
      (∀ i j, i < h.size → j < h.size → Fits (h.a.exactSum h.b i j)) ∧ FirstCell h.size h.Differs row col ∧
      h.expected.get? row col = some e ∧ v.toInt = h.a.exactSum h.b row col) ∧
    ∀ {σ : Type} (next : Source σ) (p : Params) (s : σ) (c : Case), (Case.generate next p s).1 = .ok c →
      h.size = c.params.size → h.a = c.a → h.b = c.b → (h.verify = some (.ok ()) ↔ h.holds c = true) := by
  refine ⟨?_, ?_, ?_, fun row col v => ?_, fun row col e v => verify_eq_mismatch_iff ha hb hexpected,
    fun next p s c hc hsize hleft hright => verify_iff_holds hb hexpected hc hsize hleft hright ha⟩
  · obtain ⟨r, hr, houtcome⟩ := verify_outcome ha hb hexpected
    cases houtcome with
    | same _ => exact .inl hr
    | beyond _ => exact .inr (.inl ⟨_, _, _, hr⟩)
    | differs _ _ _ _ => exact .inr (.inr ⟨_, _, _, _, hr⟩)
  · rw [verify_eq_ok_iff ha hb hexpected]
    constructor
    · intro hproduct row col hrow hcol
      exact hproduct.elements row col (ha.symm ▸ hrow) (ha.symm ▸ hcol)
    · intro helements
      refine ⟨hexpected.trans ha.symm, fun row col hrow hcol => ?_⟩
      exact helements row col (ha ▸ hrow) (ha ▸ hcol)
  · constructor
    · intro ⟨row, col, v, hover⟩
      obtain ⟨hfirst, -⟩ := (verify_eq_overflow_iff ha hb hexpected).mp hover
      exact ⟨row, col, ha ▸ hfirst.row_lt, ha ▸ hfirst.col_lt, hfirst.holds⟩
    · intro ⟨row, col, hrow, hcol, hbeyond⟩
      -- A product that is made would have an element there.
      have hnot : ∀ c, ¬ IsProduct h.a h.b c := fun c hc =>
        hbeyond (hc.fits (ha.symm ▸ hrow) (ha.symm ▸ hcol))
      obtain ⟨r, hr, houtcome⟩ := verify_outcome ha hb hexpected
      cases houtcome with
      | same hproduct => exact absurd hproduct (hnot _)
      | beyond _ => exact ⟨_, _, _, hr⟩
      | differs hproduct _ _ _ => exact absurd hproduct (hnot _)
  · rw [verify_eq_overflow_iff ha hb hexpected, FirstBeyond, ha]

/-- Both cells of the second row differ, and the first of them is reported. -/
theorem verify_decides_second_row :
    let a : Matrix := ⟨2, #[1, 2, 3, 4], rfl⟩
    let b : Matrix := ⟨2, #[5, 6, 7, 8], rfl⟩
    let h : Header := ⟨2, a, b, ⟨2, #[19, 22, 44, 51], rfl⟩, []⟩
    (h.a.size = h.size ∧ h.b.size = h.size ∧ h.expected.size = h.size) ∧
      h.verify = some (.error (.mismatch 1 0 44 43)) := by
  intro a b h
  obtain ⟨-, -, -, -, hmismatch, -⟩ := verify_decides h rfl rfl rfl
  have hfits : ∀ i, i < 2 → ∀ j, j < 2 → Fits (a.exactSum b i j) := by decide
  refine ⟨⟨rfl, rfl, rfl⟩, (hmismatch 1 0 44 43).mpr ⟨?_, ⟨by decide, by decide, ?_, ?_⟩, rfl, by decide⟩⟩
  · intro i j hi hj
    exact hfits i hi j hj
  · exact ⟨44, rfl, by decide⟩
  · intro i j hi hj hahead hdiffers
    obtain ⟨e, he, hne⟩ := hdiffers
    unfold CellAhead at hahead
    have hcells : ∀ j, j < 2 → ((h.expected.get? 0 j).getD 0).toInt = a.exactSum b 0 j := by decide
    obtain rfl : i = 0 := by omega
    have hcell := hcells j hj
    rw [he] at hcell
    exact hne hcell

end CoreBench.Stimuli.Header
