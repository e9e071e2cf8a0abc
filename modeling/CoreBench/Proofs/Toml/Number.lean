import CoreBench.Proofs.Text.Cut
import CoreBench.Proofs.Text.Decimal
import CoreBench.Toml.Number

/-!
Integers read back. The numeral of an integer has no zero at its start that digits follow, and nothing in it
that stands for a base, an exponent or a date, so it is read as that integer if the integer has 64 bits.

What is proved:
  * `digitRun_digits`: the digits of a number are read to their end;
  * `numberOrDate_numeral`, `numberOrDate_of_lt`: a numeral at the end of its line is read as its integer, and not at
    all if it is too large.
-/

namespace CoreBench.Toml

open CoreBench.Settings CoreBench.Text

/-! ## Digits -/

theorem isRadixDigit_of_isDigit {c : Char} (h : c.isDigit = true) : isRadixDigit 10 c = true := by
  obtain ⟨hlo, hhi⟩ := toNat_of_isDigit h
  have hvalue : hexValue? c = some (c.toNat - '0'.toNat) := by
    unfold hexValue?
    rw [if_pos]
    simp only [Char.le_def, UInt32.le_iff_toNat_le]
    exact ⟨hlo, hhi⟩
  have hlt : c.toNat - '0'.toNat < 10 := by
    have : '0'.toNat = 48 := rfl
    omega
  simp only [isRadixDigit, hvalue, hlt, decide_true]

theorem digitRun_of_isDigit {zeros : Bool} {s : List Char} (hs : ∀ c ∈ s, c.isDigit = true)
    (acc : List Char) :
    digitRun 10 zeros (.digits false) acc s = some (acc.reverse ++ s, []) := by
  induction s generalizing acc with
  | nil => simp [digitRun]
  | cons c s ih =>
    have hc := isRadixDigit_of_isDigit (hs c List.mem_cons_self)
    rw [digitRun]
    simp only [hc, if_true, Bool.false_and, Bool.false_eq_true, if_false]
    rw [ih (fun d hd => hs d (List.mem_cons_of_mem c hd)), List.reverse_cons, List.append_assoc]
    rfl

theorem digitRun_digits (zeros : Bool) (n : Nat) :
    digitRun 10 zeros .start [] (digits n) = some (digits n, []) := by
  rcases Nat.eq_zero_or_pos n with rfl | hn
  · cases zeros <;> rfl
  · obtain ⟨c, s, hs, hc⟩ := digits_head_ne_zero hn
    have hdigit : ∀ d ∈ c :: s, d.isDigit = true := fun d hd => isDigit_of_mem_digits (hs ▸ hd)
    rw [hs, digitRun]
    simp only [isRadixDigit_of_isDigit (hdigit c List.mem_cons_self), if_true, hc, decide_false]
    exact digitRun_of_isDigit (fun d hd => hdigit d (List.mem_cons_of_mem c hd)) [c]

/-! ## Numerals -/

/-- A character that is no digit and no sign is in no numeral. -/
theorem not_mem_numeral {c : Char} (hdigit : c.isDigit = false) (hsign : c ≠ '-') (i : Int) :
    c ∉ numeral i := by
  intro h
  rcases mem_numeral h with h | h
  · exact hsign h
  · rw [hdigit] at h
    cases h

/-- The numeral of an integer is read as one of 64 bits, or not at all. -/
theorem decimalInteger_eq (i : Int) : decimalInteger (numeral i) =
    (readInt (maxInt64 + 1) maxInt64 (numeral i)).toOption.map .int := by
  cases i with
  | ofNat n =>
    obtain ⟨c, s, hs, hc⟩ := digits_eq_cons n
    have hrun : signedRun false (digits n) = some (false, digits n, []) := by
      have hdigits := digitRun_digits false n
      rw [hs] at hdigits ⊢
      unfold signedRun
      split
      · next heq => exact absurd (List.cons.inj heq).1 (ne_of_isDigit hc rfl)
      · rw [hdigits]
        rfl
    simp only [numeral, decimalInteger, hrun, Bool.false_eq_true, if_false]
    cases readInt (maxInt64 + 1) maxInt64 (digits n) <;> rfl
  | negSucc n =>
    have hrun : signedRun false ('-' :: digits (n + 1)) = some (true, digits (n + 1), []) := by
      rw [signedRun, digitRun_digits]
      rfl
    simp only [numeral, decimalInteger, hrun, if_true]
    cases readInt (maxInt64 + 1) maxInt64 ('-' :: digits (n + 1)) <;> rfl

theorem startsDate_numeral (i : Int) : startsDate (numeral i) = false := by
  have hsign : '-' ∉ (numeral i).drop 1 := by
    have hdigits : ∀ n, '-' ∉ digits n := fun n h => absurd (isDigit_of_mem_digits h) (by decide)
    cases i with
    | ofNat n => exact fun h => hdigits n (List.mem_of_mem_drop h)
    | negSucc n => exact hdigits (n + 1)
  have hT : 'T' ∉ numeral i := not_mem_numeral rfl (by decide) i
  have ht : 't' ∉ numeral i := not_mem_numeral rfl (by decide) i
  simp only [startsDate, hT, ht, hsign, decide_false, Bool.false_and, Bool.or_false]

theorem number_numeral (i : Int) (ts : List Token) :
    number (numeral i) (.newline :: ts) = (decimalInteger (numeral i)).map (·, .newline :: ts) := by
  -- No letter is in a numeral, so the numeral has neither a base nor an exponent and is no word.
  have habsent : ∀ c : Char, c.isDigit = false → c ≠ '-' → c ∉ numeral i := fun c hd hs =>
    not_mem_numeral hd hs i
  have hbase : ∀ c : Char, c.isDigit = false → c ≠ '-' → after? ['0', c] (numeral i) = none :=
    fun c hd hs => after?_eq_none_of_not_mem (List.mem_cons_of_mem _ List.mem_cons_self) (habsent c hd hs)
  have hword : ∀ (w : List Char) (c : Char), c ∈ w → c.isDigit = false → c ≠ '-' → numeral i ≠ w :=
    fun w c hc hd hs h => habsent c hd hs (h ▸ hc)
  unfold number
  rw [hbase 'x' rfl (by decide), hbase 'o' rfl (by decide), hbase 'b' rfl (by decide)]
  simp only
  rw [if_neg (by
    rintro (h | h)
    · exact habsent 'e' rfl (by decide) h
    · exact habsent 'E' rfl (by decide) h)]
  rw [if_neg (hword _ 'n' (by decide) rfl (by decide)),
    if_neg (hword _ 'n' (by decide) rfl (by decide)), if_neg (by
    rintro (h | h)
    · exact hword _ 'n' (by decide) rfl (by decide) h
    · exact hword _ 'n' (by decide) rfl (by decide) h)]

/-- A numeral at the end of its line is read as the integer that it is, or not at all. -/
theorem numberOrDate_eq (i : Int) (ts : List Token) : numberOrDate (numeral i) (.newline :: ts) =
    (readInt (maxInt64 + 1) maxInt64 (numeral i)).toOption.map fun i => (.int i, .newline :: ts) := by
  have hnumber : numberOrDate (numeral i) (.newline :: ts) = number (numeral i) (.newline :: ts) := by
    unfold numberOrDate
    rw [startsDate_numeral, if_neg Bool.false_ne_true]
  rw [hnumber, number_numeral, decimalInteger_eq, Option.map_map]
  rfl

/-- **A numeral is read back** as the value of its line. -/
theorem numberOrDate_numeral {i : Int} (hlo : -(maxInt64 + 1) ≤ i) (hhi : i ≤ maxInt64)
    (ts : List Token) :
    numberOrDate (numeral i) (.newline :: ts) = some (.int i, .newline :: ts) := by
  have hread : readInt (maxInt64 + 1) maxInt64 (numeral i) = .ok i :=
    readInt_numeral (by omega) hhi
  rw [numberOrDate_eq, hread]
  rfl

/-- A number that has more than 63 bits is not read. -/
theorem numberOrDate_of_lt {n : Nat} (h : maxInt64 < n) (ts : List Token) :
    numberOrDate (digits n) (.newline :: ts) = none := by
  obtain ⟨f, hf⟩ := readNat_digits_of_lt h
  have hread : readInt (maxInt64 + 1) maxInt64 (numeral n) = .error f := by
    show readInt (maxInt64 + 1) maxInt64 (digits n) = _
    rw [readInt_digits, hf]
    rfl
  have heq := numberOrDate_eq n ts
  rw [hread] at heq
  exact heq

end CoreBench.Toml
