import CoreBench.Proofs.Stimuli.Header.Layout
import CoreBench.Proofs.Stimuli.Product

/-!
Headers that are read back and checked. The section of the buffers stands behind all that a check looks at, so it
decides no more than whether the lines of the declarations can be read.

What is proved:
  * `readBuffers_error`: only a line that starts like a declaration and is none can be at fault;
  * `read_header_cases`: the header of a case is read as one that holds the case, or such a line is at fault;
  * `compareFrom_cases`: a comparison finds no difference, or the first one;
  * `verify_of_product`: a header with the product of its operands passes its check.
-/

namespace CoreBench.Stimuli.Header

open CoreBench.Text

/-! ## Reading -/

/-- A line at fault is shown as it stands. -/
theorem readBuffer?_error {line : List Char} {f : HeaderFault}
    (h : readBuffer? line = some (.error f)) : f = .badBuffer (String.ofList line) := by
  obtain ⟨rest, -, h⟩ := Option.map_eq_some_iff.mp h
  split at h
  · exact (Except.error.inj h).symm
  · split at h
    · exact (Except.error.inj h).symm
    · cases h

theorem readBuffers_error {ls : List (List Char)} {f : HeaderFault}
    (h : readBuffers ls = .error f) : ∃ l, f = .badBuffer l := by
  induction ls with
  | nil => cases h
  | cons l ls ih =>
    simp only [readBuffers] at h
    split at h
    · exact ih h
    · next g hg =>
      obtain rfl := Except.error.inj h
      exact ⟨_, readBuffer?_error hg⟩
    · cases hls : readBuffers ls with
      | error g =>
        rw [hls] at h
        obtain rfl := Except.error.inj h
        exact ih hls
      | ok bs => rw [hls] at h; cases h

section

variable {c : Case}

/-- The header of a case, read back: there is a line at fault, or it holds the case. -/
theorem read_header_cases (hpos : 1 ≤ c.params.size) (hmax : c.params.size ≤ maxSize)
    (ha : c.a.size = c.params.size) (hb : c.b.size = c.params.size)
    (he : c.expected.size = c.params.size) (sect : String) :
    (∃ line, read (c.header sect).toList = .error (.parse (.badBuffer line))) ∨
      ∃ h, read (c.header sect).toList = .ok h ∧ h.holds c = true := by
  have hread := read_header hpos hmax rfl ha hb he sect
  split at hread
  · next f hf =>
    obtain ⟨line, rfl⟩ := readBuffers_error hf
    exact Or.inl ⟨line, hread⟩
  · exact Or.inr ⟨_, hread, by simp [holds]⟩

theorem read_header_of_line (hpos : 1 ≤ c.params.size) (hmax : c.params.size ≤ maxSize)
    (ha : c.a.size = c.params.size) (hb : c.b.size = c.params.size)
    (he : c.expected.size = c.params.size) {sect : String} (hline : '\n' ∉ sect.toList) :
    ∃ h, read (c.header sect).toList = .ok h := by
  have hread := read_header hpos hmax rfl ha hb he sect
  have hnames : ∀ name ∈ workBuffers, '\n' ∉ name.toList := by decide
  obtain ⟨bs, hbs, -⟩ := readBuffers_declarations hline hnames
  rw [hbs] at hread
  exact ⟨_, hread⟩

end

/-! ## Checking -/

/-- What comparing the product of a header with one of the same size comes to: there is no difference from a position
on, or there is a first one. -/
theorem compareFrom_cases {h : Header} {actual : Matrix} (hexpected : h.expected.size = h.size)
    (hactual : actual.size = h.size) {n i : Nat} (hin : i + n ≤ h.size * h.size) :
    (h.compareFrom actual i n = some (.ok ()) ∧
      ∀ k, i ≤ k → k < i + n → h.expected.cells[k]? = actual.cells[k]?) ∨
    ∃ j e v, i ≤ j ∧ j < i + n ∧
      h.compareFrom actual i n = some (.error (.mismatch (j / h.size) (j % h.size) e v)) ∧
      h.expected.cells[j]? = some e ∧ actual.cells[j]? = some v ∧ e ≠ v ∧
      ∀ k, i ≤ k → k < j → h.expected.cells[k]? = actual.cells[k]? := by
  induction n generalizing i with
  | zero => exact .inl ⟨rfl, fun k hlo hhi => absurd hhi (by omega)⟩
  | succ n ih =>
    have hcell : ∀ {m : Matrix}, m.size = h.size →
        ∃ v, m.get? (i / h.size) (i % h.size) = some v ∧ m.cells[i]? = some v := by
      intro m hm
      have hlt : i < m.cells.size := by
        rw [m.square, hm]
        omega
      rw [← hm, Matrix.get?_position, Array.getElem?_eq_getElem hlt]
      exact ⟨_, rfl, rfl⟩
    obtain ⟨e, heget, he⟩ := hcell hexpected
    obtain ⟨v, hvget, hv⟩ := hcell hactual
    simp only [compareFrom, heget, hvget]
    by_cases hsame : e = v
    · -- The cell at this position is the same, so what there is to find is found behind it.
      simp only [if_pos hsame]
      have hhere : h.expected.cells[i]? = actual.cells[i]? := by rw [he, hv, hsame]
      have hfrom : ∀ {j : Nat}, (∀ k, i + 1 ≤ k → k < j → h.expected.cells[k]? = actual.cells[k]?) →
          ∀ k, i ≤ k → k < j → h.expected.cells[k]? = actual.cells[k]? := by
        intro j hrest k hlo hhi
        rcases Nat.eq_or_lt_of_le hlo with rfl | hlt
        · exact hhere
        · exact hrest k hlt hhi
      rcases ih (i := i + 1) (by omega) with ⟨hok, hrest⟩ | ⟨j, e', v', hlo, hhi, herror, he', hv', hne, hrest⟩
      · exact .inl ⟨hok, hfrom fun k hlo hhi => hrest k hlo (by omega)⟩
      · exact .inr ⟨j, e', v', by omega, by omega, herror, he', hv', hne, hfrom hrest⟩
    · simp only [if_neg hsame]
      exact .inr ⟨i, e, v, Nat.le_refl i, by omega, rfl, he, hv, hsame, fun k hlo hhi => absurd hhi (by omega)⟩

/-- A product that is the one expected differs in no cell. -/
theorem compareFrom_expected {h : Header} (hsize : h.expected.size = h.size) :
    h.compareFrom h.expected 0 (h.size * h.size) = some (.ok ()) := by
  rcases compareFrom_cases (i := 0) hsize hsize (Nat.le_of_eq (Nat.zero_add _)) with
    ⟨hok, -⟩ | ⟨j, e, v, -, -, -, he, hv, hne, -⟩
  · exact hok
  · exact absurd (Option.some.inj (he.symm.trans hv)) hne

theorem verify_of_product {h : Header} (hsize : h.expected.size = h.size)
    (hproduct : h.a.multiply h.b = .ok h.expected) : h.verify = some (.ok ()) := by
  rw [verify, hproduct]
  exact compareFrom_expected hsize

end CoreBench.Stimuli.Header
