import CoreBench.Proofs.Stimuli.Header.Check

/-!
Headers cut short. A writer that fails leaves a start of a header behind. Such a start is read as a header that holds
the case, or not at all: up to the last digit of the size it has no size, or one that is smaller than the arrays say;
from there on the size and the arrays are those of the case, and only the lines of the buffers are left to be cut.

What is proved:
  * `readSize_of_prefix`: ahead of its first digit, the size is missing;
  * `lt_of_readSize`: some of the digits of a size, but not all, give a smaller size;
  * `read_of_cut_size`: no start of a header that ends ahead of the last digit of its size is read;
  * `read_truncated`: no start of a header is read as the header of something else.
-/

namespace CoreBench.Stimuli.Header

open CoreBench.Text

/-! ## Texts without a size -/

theorem readSize_of_none {s : List Char} (h : ∀ l ∈ lines s, after? sizeDirective (trim l) = none) :
    readSize s = .error .missingSize := by
  rw [readSize, List.findSome?_eq_none_iff.mpr h]

/-- The blank at the end of the directive is lost at the end of a line, so no start of it is one. -/
theorem readSize_of_prefix_directive {p : List Char} (hp : p <+: sizeDirective) :
    readSize p = .error .missingSize := by
  have hstart : ∀ k ≤ 13, ∀ l ∈ lines (sizeDirective.take k), after? sizeDirective (trim l) = none := by
    decide
  rw [List.prefix_iff_eq_take.mp hp]
  exact readSize_of_none (hstart p.length hp.length_le)

theorem not_mem_arrays (c : Case) : '#' ∉ arrays c := by
  have hfront : ∀ (name : String) (m : Matrix), '#' ∉ (arrayOpening name).toList →
      '#' ∉ arrayFront name m := fun name m h => not_mem_arrayFront h (by decide) rfl m
  simp only [arrays, List.mem_append, List.mem_cons, List.not_mem_nil, or_false, not_or]
  exact ⟨hfront _ _ (by decide), by decide, hfront _ _ (by decide), by decide, hfront _ _ (by decide),
    by decide⟩

/-- Ahead of its first digit, the size is missing. -/
theorem readSize_of_prefix {c : Case} {q : List Char} (hq : q <+: arrays c ++ sizeDirective) :
    readSize q = .error .missingSize := by
  rcases List.prefix_or_prefix_of_prefix hq (List.prefix_append (arrays c) sizeDirective) with h | h
  · -- The arrays alone do not even have the first character of the directive.
    have hmark : '#' ∉ q := fun hmem => not_mem_arrays c (h.subset hmem)
    refine readSize_of_none fun l hl => after?_eq_none_of_not_mem (x := '#') (by decide) fun hmem => ?_
    exact hmark (mem_of_mem_lines hl (mem_of_mem_trim hmem)).1
  · obtain ⟨p, rfl⟩ := h
    rw [readSize_arrays]
    exact readSize_of_prefix_directive ((List.prefix_append_right_inj _).mp hq)

/-! ## Some of the digits -/

/-- Some of the digits of a size, but not all, give a smaller size. -/
theorem lt_of_readSize {n m : Nat} {ds es : List Char} (hds : digits n = ds ++ es) (hcut : es ≠ [])
    (h : readSize (sizeDirective ++ ds) = .ok m) : m < n := by
  have hpos := (readSize_le h).1
  have hdigit : ∀ d ∈ ds, d.isDigit = true := fun d hd =>
    isDigit_of_mem_digits (n := n) (hds ▸ List.mem_append_left es hd)
  have hne : ds ≠ [] := by
    rintro rfl
    rw [List.append_nil, readSize_of_prefix_directive (List.prefix_refl _)] at h
    cases h
  have hline : lines (sizeDirective ++ ds) = [sizeDirective ++ ds] := by
    refine lines_of_not_mem ?_ (List.append_ne_nil_of_right_ne_nil _ hne)
    rw [List.mem_append, not_or]
    exact ⟨by decide, fun hn => absurd (hdigit _ hn) (by decide)⟩
  -- What is read is the number that the digits at hand spell; those that are missing make it larger.
  have hspelled : Nat.ofDigitChars 10 ds 0 = m := by
    rw [readSize_digits hne hdigit hline] at h
    split at h
    · cases h
    · next k hk =>
      split at h
      · cases h
      · obtain rfl := Except.ok.inj h
        obtain ⟨d, t, rfl⟩ := List.exists_cons_of_ne_nil hne
        rw [readNat_of_isDigit (hdigit d List.mem_cons_self)] at hk
        exact eq_of_readDigits hk
  calc m < Nat.ofDigitChars 10 es m := lt_ofDigitChars hpos hcut
    _ = Nat.ofDigitChars 10 (digits n) 0 := by rw [hds, Nat.ofDigitChars_append, hspelled]
    _ = n := Nat.ofDigitChars_ten_toDigits

/-- With all of its digits, the size is read as it was written, whether its line ends or not. -/
theorem readSize_of_digits {n : Nat} (hpos : 1 ≤ n) (hmax : n ≤ maxSize) {t s : List Char}
    (ht : t <+: '\n' :: s) : readSize (sizeDirective ++ (digits n ++ t)) = .ok n := by
  rcases List.prefix_cons_iff.mp ht with rfl | ⟨u, rfl, -⟩
  · have hline : lines (sizeDirective ++ digits n) = [sizeDirective ++ digits n] :=
      lines_of_not_mem (not_mem_sizeLine (by decide) rfl n)
        (List.append_ne_nil_of_right_ne_nil _ (digits_ne_nil n))
    rw [List.append_nil, readSize_digits (digits_ne_nil n) (fun _ => isDigit_of_mem_digits) hline,
      readNat_digits (Nat.le_trans hmax (by decide))]
    exact if_neg (by omega)
  · rw [← List.append_assoc, ← toList_sizeLine]
    exact readSize_sizeLine hpos hmax u

/-- A size that is not that of the arrays is at fault. -/
theorem read_of_ne_size {c : Case} {n m : Nat} (ha : c.a.size = n) (hne : m ≠ n) {s : List Char}
    (h : readSize s = .ok m) : ∃ e, read (arrays c ++ s) = .error e := by
  have hsize : (readSize (arrays c ++ s)).mapError StimuliError.parse = .ok m := by
    rw [readSize_arrays, h]
    rfl
  have hcount : c.a.cells.size ≠ m * m := by
    rw [c.a.square, ha]
    exact fun heq => hne (Nat.mul_self_inj.mp heq.symm)
  have hmatrix : ∃ e, readMatrix m operandA (arrays c ++ s) = .error e := by
    rw [readMatrix, (readArray_arrays c s).1]
    simp only [Matrix.ofCells?]
    split
    · exact ⟨_, rfl⟩
    · exact ⟨_, dif_neg hcount⟩
  obtain ⟨e, he⟩ := hmatrix
  refine ⟨e, ?_⟩
  simp only [read, hsize, he, bind, Except.bind]

/-! ## Starts of a header -/

/-- The text of a header up to the last digit of its size. -/
def sizedPart (c : Case) : List Char :=
  arrays c ++ (sizeDirective ++ digits c.params.size)

theorem toList_header_sizedPart (c : Case) (sect : String) :
    (c.header sect).toList = sizedPart c ++ '\n' :: declarations sect workBuffers := by
  rw [toList_header_eq, toList_sizeLine, sizedPart, List.append_assoc, List.append_assoc, List.append_assoc]

/-- No start of a header that ends ahead of the last digit of its size is read. -/
theorem read_of_cut_size {c : Case} (ha : c.a.size = c.params.size) {q : List Char}
    (hq : q <+: sizedPart c) (hcut : q.length < (sizedPart c).length) : ∃ e, read q = .error e := by
  rw [sizedPart, ← List.append_assoc] at hq
  rcases List.prefix_or_prefix_of_prefix hq (List.prefix_append _ _) with h | h
  · refine ⟨.parse .missingSize, ?_⟩
    simp only [read, readSize_of_prefix h, bind, Except.bind]
    rfl
  · obtain ⟨ds, rfl⟩ := h
    obtain ⟨es, hes⟩ := (List.prefix_append_right_inj _).mp hq
    have hmissing : es ≠ [] := by
      rintro rfl
      rw [List.append_nil] at hes
      simp only [sizedPart, List.length_append, hes] at hcut
      omega
    rw [List.append_assoc]
    cases hsize : readSize (sizeDirective ++ ds) with
    | error f =>
      refine ⟨.parse f, ?_⟩
      simp only [read, readSize_arrays, hsize, bind, Except.bind]
      rfl
    | ok m => exact read_of_ne_size ha (Nat.ne_of_lt (lt_of_readSize hes.symm hmissing hsize)) hsize

/-- **No start of a header is read as the header of something else.** Wherever the header of a case is cut, what
is left of it is read as a header that holds the case, or not at all; and not at all if the cut is ahead of the
last digit of the size. -/
theorem read_truncated (c : Case) (hpos : 1 ≤ c.params.size) (hmax : c.params.size ≤ maxSize)
    (ha : c.a.size = c.params.size) (hb : c.b.size = c.params.size)
    (he : c.expected.size = c.params.size) (sect : String) {q : List Char}
    (hq : q <+: (c.header sect).toList) :
    ((∃ e, read q = .error e) ∨ ∃ h, read q = .ok h ∧ h.holds c = true) ∧
    (∃ rest, (c.header sect).toList = sizedPart c ++ '\n' :: rest) ∧
    (q.length < (sizedPart c).length → ∃ e, read q = .error e) := by
  have hcut : q.length < (sizedPart c).length → ∃ e, read q = .error e := fun hlen => by
    rw [toList_header_sizedPart] at hq
    exact read_of_cut_size ha (List.prefix_of_prefix_length_le hq (List.prefix_append _ _) (Nat.le_of_lt hlen)) hlen
  refine ⟨?_, ⟨_, toList_header_sizedPart c sect⟩, hcut⟩
  rcases Nat.lt_or_ge q.length (sizedPart c).length with hlen | hlen
  · exact Or.inl (hcut hlen)
  · -- The size is whole, so the arrays decide the rest, and the lines of the buffers whether it is read at all.
    rw [toList_header_sizedPart] at hq
    obtain ⟨t, rfl⟩ := List.prefix_of_prefix_length_le (List.prefix_append _ _) hq hlen
    have hread := read_arrays (c := c) hmax ha hb he
      (readSize_of_digits hpos hmax ((List.prefix_append_right_inj _).mp hq))
    rw [sizedPart, List.append_assoc]
    split at hread
    · exact Or.inl ⟨_, hread⟩
    · exact Or.inr ⟨_, hread, by simp [holds]⟩

/-- A header of ten rows that ends between the two digits of its size, ahead of a section that gives the size that is
left. -/
theorem read_truncated_ten :
    let zeros : Matrix := ⟨10, Array.replicate 100 0, Array.size_replicate⟩
    let c : Case := ⟨⟨10, 1⟩, zeros, zeros, zeros⟩
    let hostile := "x\n#define SIZE 1"
    let q := (sizedPart c).dropLast
    (1 ≤ c.params.size ∧ c.params.size ≤ maxSize ∧ c.a.size = c.params.size ∧
      c.b.size = c.params.size ∧ c.expected.size = c.params.size) ∧
    (q <+: (c.header hostile).toList ∧ q.length < (sizedPart c).length ∧
      ∃ front, q = front ++ "#define SIZE 1".toList) ∧
    ∃ e, read q = .error e := by
  intro zeros c hostile q
  have hdigits : sizeDirective ++ digits 10 = "#define SIZE 10".toList := by decide
  have hdrop : q = arrays c ++ "#define SIZE 1".toList := by
    show (arrays c ++ (sizeDirective ++ digits 10)).dropLast = _
    rw [hdigits, List.dropLast_append_of_ne_nil (by decide)]
    rfl
  have hlen : q.length < (sizedPart c).length := by
    show _ < (arrays c ++ (sizeDirective ++ digits 10)).length
    rw [hdrop, hdigits, List.length_append, List.length_append]
    exact Nat.add_lt_add_left (by decide) _
  have hq : q <+: (c.header hostile).toList := by
    rw [toList_header_sizedPart]
    exact (List.dropLast_prefix _).trans (List.prefix_append _ _)
  refine ⟨⟨by decide, by decide, rfl, rfl, rfl⟩, ⟨hq, hlen, _, hdrop⟩, ?_⟩
  exact (read_truncated c (by decide) (by decide) rfl rfl rfl hostile hq).2.2 hlen

end CoreBench.Stimuli.Header
