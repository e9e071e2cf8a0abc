import CoreBench.Proofs.Stimuli.Checked
import CoreBench.Proofs.Stimuli.Header.Check
import CoreBench.Proofs.Stimuli.Header.Grammar
import CoreBench.Proofs.Text.Slice

/-!
Headers from unknown hands. Here reading and checking are done once more with everything in place that could break:
parts of a text are named by the offsets of octets, and products are made as in `Matrix.multiplyChecked`. A computation
traps where such a name names nothing. None of them does, and apart from that they come to what reading and checking
come to.

What is proved:
  * `slicedBody_eq`: the text of an array can be named by offsets, whatever characters are around it;
  * `read_error_cases`: what is wrong with a text is its form, or the number of elements of an array;
  * `read_never_traps`: reading any text, and checking what has been read from it.
-/

namespace CoreBench.Stimuli

open CoreBench.Text

namespace Header

/-! ## Reading -/

/-- The text between the opening of an array and its end, by the offsets of its two ends. -/
def slicedBody (name : String) (s : List Char) : Except (Stop HeaderFault) (List Char) :=
  match find? (arrayOpening name).toList s with
  | none => .error (.fault (.missingArray name))
  | some found => do
    let start := found + width (arrayOpening name).toList
    let rest ← present (slice? s start (width s))
    match find? ['\x7d', ';'] rest with
    | none => .error (.fault (.unterminatedArray name))
    | some len => present (slice? s start (start + len))

/-- The elements of an array. -/
def readArrayChecked (name : String) (s : List Char) : Except (Stop HeaderFault) (Array Int32) := do
  let body ← slicedBody name s
  (readElements name #[] (arrayItems body)).mapError .fault

/-- The matrix in the array of a name. -/
def readMatrixChecked (size : Nat) (name : String) (s : List Char) : Except (Stop StimuliError) Matrix := do
  let cells ← (readArrayChecked name s).mapError (Stop.map .parse)
  (Matrix.ofCells? size cells).mapError .fault

/-- The header that a text holds. -/
def readChecked (s : List Char) : Except (Stop StimuliError) Header := do
  let size ← ((readSize s).mapError StimuliError.parse).mapError .fault
  let a ← readMatrixChecked size operandA s
  let b ← readMatrixChecked size operandB s
  let expected ← readMatrixChecked size product s
  let buffers ← ((readBuffers (lines s)).mapError StimuliError.parse).mapError .fault
  .ok ⟨size, a, b, expected, buffers⟩

/-- Both ends of an array are at the boundaries of characters, and in order. -/
theorem slicedBody_eq (name : String) (s : List Char) : slicedBody name s = (arrayBody name s).mapError .fault := by
  rw [slicedBody, arrayBody]
  cases hopen : cut? (arrayOpening name).toList s with
  | none =>
    rw [find?, hopen]
    rfl
  | some p =>
    obtain ⟨front, rest⟩ := p
    obtain ⟨hfound, -, hrest⟩ := slice?_find? hopen
    rw [hfound]
    simp only [hrest, present, bind, Except.bind]
    cases hend : cut? ['\x7d', ';'] rest with
    | none =>
      rw [find?, hend]
      rfl
    | some q =>
      obtain ⟨body, behind⟩ := q
      -- The end was found in what is behind the opening, so its offset counts from there.
      obtain ⟨hlen, -, -⟩ := slice?_find? hend
      obtain ⟨hs, -⟩ := cut?_eq_some_iff.mp hopen
      obtain ⟨hrest', -⟩ := cut?_eq_some_iff.mp hend
      have hbody := slice?_append (front ++ (arrayOpening name).toList) body (['\x7d', ';'] ++ behind)
      rw [← hrest', List.append_assoc, ← hs, width_append] at hbody
      simp only [hlen, hbody]
      rfl

theorem readArrayChecked_eq (name : String) (s : List Char) :
    readArrayChecked name s = (readArray name s).mapError .fault := by
  rw [readArrayChecked, readArray, slicedBody_eq]
  cases arrayBody name s <;> rfl

theorem readMatrixChecked_eq (size : Nat) (name : String) (s : List Char) :
    readMatrixChecked size name s = (readMatrix size name s).mapError .fault := by
  rw [readMatrixChecked, readMatrix, readArrayChecked_eq]
  cases readArray name s <;> rfl

/-- No text breaks the reading of it. -/
theorem readChecked_eq (s : List Char) : readChecked s = (read s).mapError .fault := by
  rw [readChecked, read]
  simp only [readMatrixChecked_eq, mapError_bind]
  rfl

/-- What is wrong with an array of an allowed size: its form, or the number of its elements. -/
theorem readMatrix_error {n : Nat} (hmax : n ≤ maxSize) {name : String} {s : List Char} {e : StimuliError}
    (h : readMatrix n name s = .error e) :
    (∃ f, e = .parse f) ∨ ∃ actual, actual ≠ n * n ∧ e = .invalidLength n (n * n) actual := by
  rw [readMatrix] at h
  split at h
  · exact .inl ⟨_, (Except.error.inj h).symm⟩
  · next cells hcells =>
    rw [Matrix.ofCells?, Matrix.cellCount?_of_le hmax] at h
    simp only at h
    split at h
    · cases h
    · next hne => exact .inr ⟨cells.size, hne, (Except.error.inj h).symm⟩

/-- What is wrong with a text: its form, or the number of elements of an array. -/
theorem read_error_cases {s : List Char} {e : StimuliError} (h : read s = .error e) :
    (∃ f, e = .parse f) ∨ ∃ n actual, actual ≠ n * n ∧ e = .invalidLength n (n * n) actual := by
  rcases read_cases s with ⟨f, hf⟩ | ⟨n, name, e', hsize, hmatrix, he⟩ | ⟨h', hok, -⟩
  · exact .inl ⟨f, Except.error.inj (h.symm.trans hf)⟩
  · obtain rfl := Except.error.inj (h.symm.trans he)
    rcases readMatrix_error (readSize_le hsize).2 hmatrix with hf | ⟨actual, hne, he⟩
    · exact .inl hf
    · exact .inr ⟨n, actual, hne, he⟩
  · rw [h] at hok
    cases hok

/-! ## Checking -/

/-- What a reader may rely on: an allowed size, and three matrices of that size. -/
structure Sized (h : Header) : Prop where
  pos : 1 ≤ h.size
  le : h.size ≤ maxSize
  a : h.a.size = h.size ∧ h.a.cells.size = h.size * h.size
  b : h.b.size = h.size ∧ h.b.cells.size = h.size * h.size
  expected : h.expected.size = h.size ∧ h.expected.cells.size = h.size * h.size

/-- What the check of a header of size `n` may come to. -/
inductive Verdict (n : Nat) : Except StimuliError Unit → Prop
  | right : Verdict n (.ok ())
  | overflow {row col : Nat} {v : Int} : row < n → col < n → Verdict n (.error (.overflow row col v))
  | mismatch {row col : Nat} {e v : Int32} : row < n → col < n → Verdict n (.error (.mismatch row col e v))

/-- The check of a header. -/
def verifyChecked (h : Header) : Except (Stop StimuliError) Unit := do
  let actual ← h.a.multiplyChecked h.b
  match h.compareFrom actual 0 (h.size * h.size) with
  | none => .error .trap
  | some r => r.mapError .fault

variable {h : Header}

/-- A header that has been read has the sizes that it says. -/
theorem sized_of_read {s : List Char} (hread : read s = .ok h) : Sized h := by
  have hspells := (read_cases s).resolve_left fun ⟨f, hf⟩ => by rw [hread] at hf; cases hf
  rcases hspells with ⟨n, name, e, -, -, he⟩ | ⟨h', hok, hsize, ha, hb, hexpected, -⟩
  · rw [hread] at he
    cases he
  · obtain rfl := Except.ok.inj (hread.symm.trans hok)
    obtain ⟨hpos, hmax⟩ := readSize_le hsize
    have hmatrix : ∀ {name : String} {m : Matrix}, readMatrix h.size name s = .ok m →
        m.size = h.size ∧ m.cells.size = h.size * h.size := fun hm =>
      have held := (readMatrix_eq_ok_iff hmax).mp hm
      ⟨held.1, held.2.1⟩
    exact ⟨hpos, hmax, hmatrix ha, hmatrix hb, hmatrix hexpected⟩

/-- A comparison of matrices of the size of the header finds each cell that it looks at. -/
theorem compareFrom_verdict {actual : Matrix} (hexpected : h.expected.size = h.size) (hactual : actual.size = h.size) :
    ∃ r, h.compareFrom actual 0 (h.size * h.size) = some r ∧ Verdict h.size r := by
  rcases compareFrom_cases (i := 0) hexpected hactual (Nat.le_of_eq (Nat.zero_add _)) with
    ⟨hok, -⟩ | ⟨j, e, v, -, hj, herror, -, -, -, -⟩
  · exact ⟨_, hok, .right⟩
  · obtain ⟨hrow, hcol⟩ := Matrix.div_mod_lt (show j < h.size * h.size by omega)
    exact ⟨_, herror, .mismatch hrow hcol⟩

/-- The check of a header with the sizes that it says comes to a verdict, and does not trap. -/
theorem Sized.verify (hsized : Sized h) :
    ∃ r, h.verify = some r ∧ h.verifyChecked = r.mapError .fault ∧ Verdict h.size r := by
  have hsize : h.a.size = h.b.size := hsized.a.1.trans hsized.b.1.symm
  have hmax : h.a.size ≤ max64 := by
    rw [hsized.a.1]
    exact Nat.le_trans hsized.le (by decide)
  have hchecked := Matrix.multiplyChecked_eq (b := h.b) hmax
  rw [Header.verify, verifyChecked, hchecked]
  cases hproduct : h.a.multiply h.b with
  | error e =>
    obtain ⟨i, hi, -, rfl, -⟩ := Matrix.multiply_error hsize hproduct
    obtain ⟨hrow, hcol⟩ := Matrix.div_mod_lt hi
    exact ⟨_, rfl, rfl, .overflow (hsized.a.1 ▸ hrow) (hsized.a.1 ▸ hcol)⟩
  | ok actual =>
    have hactual : actual.size = h.size := (Matrix.multiply_size hproduct).trans hsized.a.1
    obtain ⟨r, hr, hverdict⟩ := compareFrom_verdict hsized.expected.1 hactual
    refine ⟨r, hr, ?_, hverdict⟩
    show (match h.compareFrom actual 0 (h.size * h.size) with | none => _ | some r => _) = _
    rw [hr]

/-- **No text breaks a reader.** With every access checked, reading a text comes to what reading it comes to, which is a
fault of its form, a wrong number of elements, or a header with the sizes that it says; and the check of that header,
with every access checked, comes to what checking it comes to. -/
theorem read_never_traps (s : List Char) :
    readChecked s = (read s).mapError .fault ∧
    ((∃ f, read s = .error (.parse f)) ∨
      (∃ n actual, actual ≠ n * n ∧ read s = .error (.invalidLength n (n * n) actual)) ∨
      ∃ h, read s = .ok h ∧ Sized h ∧
        ∃ r, h.verify = some r ∧ h.verifyChecked = r.mapError .fault ∧ Verdict h.size r) := by
  refine ⟨readChecked_eq s, ?_⟩
  cases hread : read s with
  | error e =>
    rcases read_error_cases hread with ⟨f, rfl⟩ | ⟨n, actual, hne, rfl⟩
    · exact .inl ⟨f, rfl⟩
    · exact .inr (.inl ⟨n, actual, hne, rfl⟩)
  | ok h => exact .inr (.inr ⟨h, rfl, sized_of_read hread, (sized_of_read hread).verify⟩)

end Header

end CoreBench.Stimuli
