import CoreBench.Text.Cut
import CoreBench.Text.Digits

/-!
Numerals read back. What is written for a number within the bounds of a reader is read as that number, and what is
read was a literal of the number, said here without a reader.

What is proved:
  * `readNat_digits`, `readNat_digits_of_lt`: the digits of a natural number are read as that number, or refused if
    it is beyond the bound;
  * `readInt_numeral`: the numeral of an integer is read as that integer, the least one included;
  * `readNat_eq_ok_iff`, `readInt_eq_ok_iff`: the texts that are read are the literals of numbers within the bounds.
-/

namespace CoreBench.Text

theorem isDigit_of_mem_digits {n : Nat} {c : Char} (h : c ∈ digits n) : c.isDigit = true :=
  Nat.isDigit_of_mem_toDigits (by decide) (by decide) h

theorem digits_ne_nil (n : Nat) : digits n ≠ [] :=
  Nat.toDigits_ne_nil

/-- No number but 0 has a zero at its start. -/
theorem digits_head_ne_zero {n : Nat} (h : 0 < n) : ∃ c s, digits n = c :: s ∧ c ≠ '0' := by
  -- By the number without its last digit, which starts with the same one.
  induction n using Nat.strongRecOn with
  | ind n ih =>
    by_cases hn : n < 10
    · have hdigit : ∀ m < 10, 0 < m → Nat.digitChar m ≠ '0' := by decide
      exact ⟨Nat.digitChar n, [], Nat.toDigits_of_lt_base hn, hdigit n hn h⟩
    · obtain ⟨c, s, hs, hc⟩ := ih (n / 10) (by omega) (by omega)
      refine ⟨c, s ++ [Nat.digitChar (n % 10)], ?_, hc⟩
      rw [digits, Nat.toDigits_of_base_le (by decide) (by omega)]
      exact congrArg (· ++ _) hs

/-- A digit by its code point. -/
theorem toNat_of_isDigit {c : Char} (h : c.isDigit = true) : 48 ≤ c.toNat ∧ c.toNat ≤ 57 := by
  simp only [Char.isDigit, Bool.and_eq_true, decide_eq_true_eq] at h
  exact ⟨UInt32.le_iff_toNat_le.mp h.1, UInt32.le_iff_toNat_le.mp h.2⟩

theorem ne_of_isDigit {c d : Char} (h : c.isDigit = true) (hd : d.isDigit = false) : c ≠ d := by
  rintro rfl
  rw [h] at hd
  exact Bool.noConfusion hd

theorem isBlank_of_isDigit {c : Char} (h : c.isDigit = true) : isBlank c = false := by
  obtain ⟨hlo, hhi⟩ := toNat_of_isDigit h
  simp only [isBlank, Bool.or_eq_false_iff, Bool.and_eq_false_iff, decide_eq_false_iff_not,
    beq_eq_false_iff_ne]
  omega

/-! ## Digits -/

/-- Digits are read as the number that they spell, as far as the bound goes. No digit before the last one can
exceed it, since the number only grows. -/
theorem readDigits_of_le {bound value : Nat} {past : NumeralFault} {s : List Char}
    (hs : ∀ c ∈ s, c.isDigit = true) (hle : Nat.ofDigitChars 10 s value ≤ bound) :
    readDigits bound past value s = .ok (Nat.ofDigitChars 10 s value) := by
  induction s generalizing value with
  | nil => rw [Nat.ofDigitChars_nil]; rfl
  | cons c s ih =>
    rw [Nat.ofDigitChars_cons] at hle ⊢
    have hgrow : 10 * value + (c.toNat - '0'.toNat)
        ≤ Nat.ofDigitChars 10 s (10 * value + (c.toNat - '0'.toNat)) := by
      rw [Nat.ofDigitChars_eq_ofDigitChars_zero]
      have := Nat.le_mul_of_pos_left (10 * value + (c.toNat - '0'.toNat))
        (Nat.pow_pos (n := s.length) (show 0 < 10 by decide))
      omega
    have hv : digitValue? c = some (c.toNat - '0'.toNat) := if_pos (hs c List.mem_cons_self)
    simp only [readDigits, hv]
    rw [if_pos (Nat.le_trans hgrow hle)]
    exact ih (fun d hd => hs d (List.mem_cons_of_mem c hd)) hle

/-- Digits that are read spell the number that is read. -/
theorem eq_of_readDigits {bound value m : Nat} {past : NumeralFault} {s : List Char}
    (h : readDigits bound past value s = .ok m) : Nat.ofDigitChars 10 s value = m := by
  induction s generalizing value with
  | nil =>
    rw [Nat.ofDigitChars_nil]
    exact Except.ok.inj h
  | cons c s ih =>
    rw [readDigits] at h
    split at h
    · cases h
    · next d hd =>
      have hvalue : d = c.toNat - '0'.toNat := by
        unfold digitValue? at hd
        split at hd
        · exact (Option.some.inj hd).symm
        · cases hd
      split at h
      · rw [Nat.ofDigitChars_cons, ← hvalue]
        exact ih h
      · cases h

theorem isDigit_of_readDigits {bound value n : Nat} {past : NumeralFault} {s : List Char}
    (h : readDigits bound past value s = .ok n) : ∀ c ∈ s, c.isDigit = true := by
  induction s generalizing value with
  | nil => exact fun c hc => absurd hc List.not_mem_nil
  | cons d s ih =>
    rw [readDigits] at h
    split at h
    · cases h
    · next v hv =>
      split at h
      · refine List.forall_mem_cons.mpr ⟨?_, ih h⟩
        unfold digitValue? at hv
        split at hv
        · next hd => exact hd
        · cases hv
      · cases h

/-- Each further digit makes a number larger, unless it was 0. -/
theorem lt_ofDigitChars {m : Nat} (hm : 1 ≤ m) {s : List Char} (hs : s ≠ []) :
    m < Nat.ofDigitChars 10 s m := by
  obtain ⟨c, s, rfl⟩ := List.exists_cons_of_ne_nil hs
  rw [Nat.ofDigitChars_cons, Nat.ofDigitChars_eq_ofDigitChars_zero]
  have hgrow := Nat.le_mul_of_pos_left (10 * m + (c.toNat - '0'.toNat))
    (Nat.pow_pos (n := s.length) (show 0 < 10 by decide))
  omega

theorem readDigits_digits {bound n : Nat} (past : NumeralFault) (h : n ≤ bound) :
    readDigits bound past 0 (digits n) = .ok n := by
  have e : Nat.ofDigitChars 10 (digits n) 0 = n := Nat.ofDigitChars_ten_toDigits
  rw [readDigits_of_le (fun _ => isDigit_of_mem_digits) (by rw [e]; exact h), e]

/-- A text that starts with another character than a plus sign is read as it stands. -/
theorem readNat_of_ne {bound : Nat} {c : Char} {s : List Char} (h : c ≠ '+') :
    readNat bound (c :: s) = readDigits bound .tooLarge 0 (c :: s) := by
  unfold readNat
  split <;> simp_all

/-- A plus sign ahead of something has no meaning. -/
theorem readNat_plus {bound : Nat} {s : List Char} (h : s ≠ []) :
    readNat bound ('+' :: s) = readDigits bound .tooLarge 0 s := by
  obtain ⟨c, s, rfl⟩ := List.exists_cons_of_ne_nil h
  rfl

/-- A text that starts with a digit has no sign. -/
theorem readNat_of_isDigit {bound : Nat} {c : Char} {s : List Char} (h : c.isDigit = true) :
    readNat bound (c :: s) = readDigits bound .tooLarge 0 (c :: s) :=
  readNat_of_ne (ne_of_isDigit h rfl)

theorem digits_eq_cons (n : Nat) : ∃ c s, digits n = c :: s ∧ c.isDigit = true := by
  obtain ⟨c, s, h⟩ := List.exists_cons_of_ne_nil (digits_ne_nil n)
  exact ⟨c, s, h, isDigit_of_mem_digits (h ▸ List.mem_cons_self)⟩

theorem readNat_digits {bound n : Nat} (h : n ≤ bound) : readNat bound (digits n) = .ok n := by
  obtain ⟨c, s, e, hc⟩ := digits_eq_cons n
  rw [e, readNat_of_isDigit hc, ← e]
  exact readDigits_digits .tooLarge h

/-- The digits of a number beyond the bound are refused. -/
theorem readNat_digits_of_lt {bound n : Nat} (h : bound < n) :
    ∃ f, readNat bound (digits n) = .error f := by
  obtain ⟨c, s, e, hc⟩ := digits_eq_cons n
  cases hr : readNat bound (digits n) with
  | error f => exact ⟨f, rfl⟩
  | ok m =>
    rw [e, readNat_of_isDigit hc, ← e] at hr
    have hvalue : Nat.ofDigitChars 10 (digits n) 0 = n := Nat.ofDigitChars_ten_toDigits
    have hm : n = m := hvalue.symm.trans (eq_of_readDigits hr)
    have hle := readDigits_le (Nat.zero_le bound) hr
    omega

/-! ## Signs -/

/-- A text that starts with another character than a minus sign is read as a natural number. -/
theorem readInt_of_ne {below above : Nat} {c : Char} {s : List Char} (h : c ≠ '-') :
    readInt below above (c :: s) = (readNat above (c :: s)).map Int.ofNat := by
  unfold readInt
  split <;> simp_all

/-- What is behind a minus sign is read as digits. -/
theorem readInt_minus {below above : Nat} {s : List Char} (h : s ≠ []) :
    readInt below above ('-' :: s) = (readDigits below .tooSmall 0 s).map fun n => -(n : Int) := by
  obtain ⟨c, s, rfl⟩ := List.exists_cons_of_ne_nil h
  rfl

theorem readInt_digits (below above n : Nat) :
    readInt below above (digits n) = (readNat above (digits n)).map Int.ofNat := by
  obtain ⟨c, s, e, hc⟩ := digits_eq_cons n
  rw [e, readInt_of_ne (ne_of_isDigit hc rfl)]

theorem mem_numeral {i : Int} {c : Char} (h : c ∈ numeral i) : c = '-' ∨ c.isDigit = true := by
  cases i with
  | ofNat n => exact Or.inr (isDigit_of_mem_digits h)
  | negSucc n =>
    rcases List.mem_cons.mp h with rfl | h
    · exact Or.inl rfl
    · exact Or.inr (isDigit_of_mem_digits h)

theorem numeral_ne_nil (i : Int) : numeral i ≠ [] := by
  cases i with
  | ofNat n => exact digits_ne_nil n
  | negSucc n => exact List.cons_ne_nil _ _

theorem isBlank_of_mem_numeral {i : Int} {c : Char} (h : c ∈ numeral i) : isBlank c = false := by
  rcases mem_numeral h with rfl | h
  · rfl
  · exact isBlank_of_isDigit h

/-- The numeral of an integer is read as that integer. -/
theorem readInt_numeral {below above : Nat} {i : Int} (hlo : -(below : Int) ≤ i)
    (hhi : i ≤ above) : readInt below above (numeral i) = .ok i := by
  cases i with
  | ofNat n =>
    show readInt below above (digits n) = _
    rw [readInt_digits, readNat_digits (Int.ofNat_le.mp hhi)]
    rfl
  | negSucc n =>
    -- Behind its sign, the numeral is read up to the bound below, so the least integer is no exception.
    have hle : n + 1 ≤ below := by omega
    show readInt below above ('-' :: digits (n + 1)) = _
    rw [readInt_minus (digits_ne_nil (n + 1)), readDigits_digits .tooSmall hle]
    rfl

/-! ## Literals -/

/-- ASCII digits, at least one, that spell a number. -/
structure Digits (s : List Char) (n : Nat) : Prop where
  ne_nil : s ≠ []
  isDigit : ∀ c ∈ s, c.isDigit = true
  spells : Nat.ofDigitChars 10 s 0 = n

/-- A natural number in decimal: its digits, behind a plus sign or none. -/
inductive NaturalLiteral : List Char → Nat → Prop
  | unsigned {s : List Char} {n : Nat} : Digits s n → NaturalLiteral s n
  | plus {s : List Char} {n : Nat} : Digits s n → NaturalLiteral ('+' :: s) n

/-- An integer in decimal: a natural number, or digits behind a minus sign. -/
inductive IntegerLiteral : List Char → Int → Prop
  | natural {s : List Char} {n : Nat} : NaturalLiteral s n → IntegerLiteral s n
  | minus {s : List Char} {n : Nat} : Digits s n → IntegerLiteral ('-' :: s) (-n)

theorem Digits.eq_cons {s : List Char} {n : Nat} (h : Digits s n) :
    ∃ c t, s = c :: t ∧ c.isDigit = true := by
  obtain ⟨c, t, rfl⟩ := List.exists_cons_of_ne_nil h.ne_nil
  exact ⟨c, t, rfl, h.isDigit c List.mem_cons_self⟩

theorem NaturalLiteral.ne_nil {s : List Char} {n : Nat} (h : NaturalLiteral s n) : s ≠ [] := by
  cases h with
  | unsigned h => exact h.ne_nil
  | plus h => exact List.cons_ne_nil _ _

theorem IntegerLiteral.ne_nil {s : List Char} {i : Int} (h : IntegerLiteral s i) : s ≠ [] := by
  cases h with
  | natural h => exact h.ne_nil
  | minus h => exact List.cons_ne_nil _ _

/-- Digits are read exactly if they spell a number within the bound. -/
theorem readDigits_eq_ok_iff {bound n : Nat} {past : NumeralFault} {s : List Char} (hs : s ≠ []) :
    readDigits bound past 0 s = .ok n ↔ Digits s n ∧ n ≤ bound := by
  constructor
  · intro h
    exact ⟨⟨hs, isDigit_of_readDigits h, eq_of_readDigits h⟩, readDigits_le (Nat.zero_le bound) h⟩
  · rintro ⟨⟨-, hdigits, rfl⟩, hle⟩
    exact readDigits_of_le hdigits hle

/-- What is read as a natural number are the literals of those within the bound. -/
theorem readNat_eq_ok_iff {bound n : Nat} {s : List Char} :
    readNat bound s = .ok n ↔ NaturalLiteral s n ∧ n ≤ bound := by
  constructor
  · intro h
    unfold readNat at h
    split at h
    · cases h
    · cases h
    · next t hne =>
      obtain ⟨hdigits, hle⟩ := (readDigits_eq_ok_iff hne).mp h
      exact ⟨.plus hdigits, hle⟩
    · next hne _ _ =>
      obtain ⟨hdigits, hle⟩ := (readDigits_eq_ok_iff hne).mp h
      exact ⟨.unsigned hdigits, hle⟩
  · rintro ⟨hliteral, hle⟩
    cases hliteral with
    | unsigned h =>
      obtain ⟨c, t, rfl, hc⟩ := h.eq_cons
      rw [readNat_of_isDigit hc]
      exact (readDigits_eq_ok_iff h.ne_nil).mpr ⟨h, hle⟩
    | plus h =>
      rw [readNat_plus h.ne_nil]
      exact (readDigits_eq_ok_iff h.ne_nil).mpr ⟨h, hle⟩

/-- What is read as an integer are the literals of those within the bounds. -/
theorem readInt_eq_ok_iff {below above : Nat} {i : Int} {s : List Char} :
    readInt below above s = .ok i ↔ IntegerLiteral s i ∧ -(below : Int) ≤ i ∧ i ≤ above := by
  constructor
  · intro h
    unfold readInt at h
    split at h
    · cases h
    · next t hne =>
      cases ht : readDigits below .tooSmall 0 t with
      | error f => rw [ht] at h; cases h
      | ok n =>
        rw [ht] at h
        obtain rfl := Except.ok.inj h
        obtain ⟨hdigits, hle⟩ := (readDigits_eq_ok_iff hne).mp ht
        exact ⟨.minus hdigits, Int.neg_le_neg (Int.ofNat_le.mpr hle), Int.neg_natCast_le_natCast n above⟩
    · cases hs : readNat above s with
      | error f => rw [hs] at h; cases h
      | ok n =>
        rw [hs] at h
        obtain rfl := Except.ok.inj h
        obtain ⟨hliteral, hle⟩ := readNat_eq_ok_iff.mp hs
        exact ⟨.natural hliteral, by simp only [Int.ofNat_eq_natCast]; omega, Int.ofNat_le.mpr hle⟩
  · rintro ⟨hliteral, hlo, hhi⟩
    cases hliteral with
    | natural h =>
      rename_i n
      have hread : readNat above s = .ok n := readNat_eq_ok_iff.mpr ⟨h, Int.ofNat_le.mp hhi⟩
      -- A literal of a natural number does not start with a minus sign.
      have hsign : readInt below above s = (readNat above s).map Int.ofNat := by
        cases h with
        | unsigned h =>
          obtain ⟨c, t, rfl, hc⟩ := h.eq_cons
          exact readInt_of_ne (ne_of_isDigit hc rfl)
        | plus h => exact readInt_of_ne (by decide)
      rw [hsign, hread]
      rfl
    | @minus t n h =>
      have hread : readDigits below .tooSmall 0 t = .ok n := (readDigits_eq_ok_iff h.ne_nil).mpr ⟨h, by omega⟩
      rw [readInt_minus h.ne_nil, hread]
      rfl

end CoreBench.Text
