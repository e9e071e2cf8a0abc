import CoreBench.Proofs.Text.Decimal
import CoreBench.Proofs.Text.Parts

/-!
Texts with other endings of lines: a carriage return goes ahead of each newline. What has neither of the two in it is
found where it was, between the same texts with their endings rewritten; and where blanks have no meaning, a new
carriage return has none either.

What is proved:
  * `cut?_withAhead`, `pieces_withAhead`: cutting at what has neither a mark nor what is marked;
  * `trim_withReturns`: trimming goes with rewriting;
  * `map_trim_lines_withReturns`: the lines are the same, blanks around them aside;
  * `readInt_withReturns`: a numeral is read, or refused for the same reason.
-/

namespace CoreBench.Text

/-! ## Marks -/

section Marks

variable {α : Type} [DecidableEq α] {sep mark : α}

/-- A text with `mark` ahead of each `sep`. -/
def withAhead (sep mark : α) (s : List α) : List α :=
  s.flatMap fun c => if c = sep then [mark, sep] else [c]

theorem withAhead_append (s t : List α) :
    withAhead sep mark (s ++ t) = withAhead sep mark s ++ withAhead sep mark t :=
  List.flatMap_append

theorem withAhead_cons_self (s : List α) :
    withAhead sep mark (sep :: s) = mark :: sep :: withAhead sep mark s := by
  rw [withAhead, List.flatMap_cons, if_pos rfl]
  rfl

theorem withAhead_cons_of_ne {c : α} (hc : c ≠ sep) (s : List α) :
    withAhead sep mark (c :: s) = c :: withAhead sep mark s := by
  rw [withAhead, List.flatMap_cons, if_neg hc]
  rfl

theorem withAhead_of_not_mem {s : List α} (h : sep ∉ s) : withAhead sep mark s = s := by
  induction s with
  | nil => rfl
  | cons c s ih =>
    have hc : c ≠ sep := fun e => h (e ▸ List.mem_cons_self)
    rw [withAhead_cons_of_ne hc, ih fun hm => h (List.mem_cons_of_mem c hm)]

theorem withAhead_eq_nil_iff {s : List α} : withAhead sep mark s = [] ↔ s = [] := by
  cases s with
  | nil => exact ⟨fun _ => rfl, fun _ => rfl⟩
  | cons c s =>
    by_cases hc : c = sep
    · subst hc
      simp [withAhead_cons_self]
    · simp [withAhead_cons_of_ne hc]

variable {x : α} {p : List α}

theorem after?_withAhead (hsep : sep ∉ p) (hmark : mark ∉ p) (s : List α) :
    after? p (withAhead sep mark s) = (after? p s).map (withAhead sep mark) := by
  induction p generalizing s with
  | nil => rfl
  | cons x p ih =>
    rw [List.mem_cons, not_or] at hsep hmark
    cases s with
    | nil => rfl
    | cons c s =>
      by_cases hc : c = sep
      · subst hc
        rw [withAhead_cons_self, after?_eq_none_of_head (Ne.symm hmark.1), after?_eq_none_of_head (Ne.symm hsep.1)]
        rfl
      · rw [withAhead_cons_of_ne hc, after?, after?]
        split
        · exact ih hsep.2 hmark.2 s
        · rfl

/-- A separator without the two is found where it was. -/
theorem cut?_withAhead (hsep : sep ∉ x :: p) (hmark : mark ∉ x :: p) (s : List α) :
    cut? (x :: p) (withAhead sep mark s) =
      (cut? (x :: p) s).map fun q => (withAhead sep mark q.1, withAhead sep mark q.2) := by
  induction s with
  | nil => rfl
  | cons c s ih =>
    by_cases hc : c = sep
    · subst hc
      have hnew : x ∉ [mark, c] := by
        rw [List.mem_cons, not_or] at hsep hmark
        simp [Ne.symm hsep.1, Ne.symm hmark.1]
      have hold : x ∉ [c] := fun h => hnew (List.mem_cons_of_mem mark h)
      have hpassed : cut? (x :: p) ([mark, c] ++ withAhead c mark s) = _ := cut?_append_of_not_mem hnew _
      have hpassed' : cut? (x :: p) ([c] ++ s) = _ := cut?_append_of_not_mem hold s
      rw [withAhead_cons_self]
      show cut? (x :: p) ([mark, c] ++ withAhead c mark s) = (cut? (x :: p) ([c] ++ s)).map _
      rw [hpassed, hpassed', ih, Option.map_map, Option.map_map]
      congr 1
      funext q
      exact congrArg (·, withAhead c mark q.2) (withAhead_cons_self q.1).symm
    · have hafter := after?_withAhead hsep hmark (c :: s)
      rw [withAhead_cons_of_ne hc] at hafter ⊢
      rw [cut?_cons, cut?_cons, hafter]
      cases after? (x :: p) (c :: s) with
      | some rest => rfl
      | none =>
        simp only [Option.map_none, ih, Option.map_map]
        congr 1
        funext q
        exact congrArg (·, withAhead sep mark q.2) (withAhead_cons_of_ne hc q.1).symm

/-- The pieces between other separators are the same, each with its own marks. -/
theorem pieces_withAhead (hsep : x ≠ sep) (hmark : x ≠ mark) (s : List α) :
    pieces x (withAhead sep mark s) = (pieces x s).map (withAhead sep mark) := by
  induction s with
  | nil => rfl
  | cons c s ih =>
    by_cases hc : c = sep
    · subst hc
      obtain ⟨q, qs, hq, e⟩ := pieces_cons_of_ne (Ne.symm hsep) s
      have hnew : x ∉ [mark, c] := by simp [hsep, hmark]
      obtain ⟨q', qs', hq', e'⟩ := pieces_append_of_not_mem hnew (withAhead c mark s)
      rw [ih, hq] at hq'
      obtain ⟨rfl, rfl⟩ := List.cons.inj hq'
      rw [withAhead_cons_self, e, List.map_cons, withAhead_cons_self]
      exact e'
    · rw [withAhead_cons_of_ne hc]
      by_cases hx : c = x
      · subst hx
        rw [pieces_cons_sep, pieces_cons_sep, ih]
        rfl
      · obtain ⟨q, qs, hq, e⟩ := pieces_cons_of_ne hx s
        obtain ⟨q', qs', hq', e'⟩ := pieces_cons_of_ne hx (withAhead sep mark s)
        rw [ih, hq] at hq'
        obtain ⟨rfl, rfl⟩ := List.cons.inj hq'
        rw [e, e', List.map_cons, withAhead_cons_of_ne hc]

end Marks

/-! ## Carriage returns -/

/-- A text with a carriage return ahead of each of its newlines. -/
def withReturns (s : List Char) : List Char :=
  withAhead '\n' '\r' s

theorem allBlank_withReturns {s : List Char} (h : allBlank s = true) : allBlank (withReturns s) = true := by
  rw [allBlank, withReturns, withAhead, List.all_flatMap]
  refine List.all_eq_true.mpr fun c hc => ?_
  split
  · rfl
  · simpa using List.all_eq_true.mp h c hc

/-- A character that is no blank stays where it is at the start of a text. -/
theorem head?_withReturns {t : List Char} (h : ∀ c ∈ t.head?, isBlank c = false) :
    (withReturns t).head? = t.head? := by
  cases t with
  | nil => rfl
  | cons c t =>
    have hc : c ≠ '\n' := by
      rintro rfl
      exact Bool.noConfusion (h '\n' rfl)
    rw [withReturns, withAhead_cons_of_ne hc]
    rfl

/-- The same at its end. -/
theorem getLast?_withReturns {t : List Char} : (withReturns t).getLast? = t.getLast? := by
  rcases List.eq_nil_or_concat t with rfl | ⟨t, c, rfl⟩
  · rfl
  · rw [List.concat_eq_append, withReturns, withAhead_append, List.getLast?_append, List.getLast?_concat]
    by_cases hc : c = '\n'
    · subst hc
      rfl
    · rw [withAhead_cons_of_ne hc]
      rfl

/-- Trimming goes with rewriting. -/
theorem trim_withReturns (s : List Char) : trim (withReturns s) = withReturns (trim s) := by
  obtain ⟨⟨w, v, hs, hw, hv⟩, hhead, hlast⟩ := trims_trim s
  refine trims_iff.mp ⟨⟨withReturns w, withReturns v, ?_, allBlank_withReturns hw, allBlank_withReturns hv⟩, ?_, ?_⟩
  · calc withReturns s = withReturns (w ++ (trim s ++ v)) := congrArg withReturns hs
      _ = withReturns w ++ (withReturns (trim s) ++ withReturns v) := by simp only [withReturns, withAhead_append]
  · rwa [head?_withReturns hhead]
  · rwa [getLast?_withReturns]

/-- The lines are the same, blanks around them aside: a carriage return that was there is not the last one any more. -/
theorem map_trim_lines_withReturns (s : List Char) : (lines (withReturns s)).map trim = (lines s).map trim := by
  obtain ⟨ls, h⟩ := exists_lined s
  rw [h.lines_eq]
  induction h with
  | nothing => rfl
  | opened hne hl => rw [withReturns, withAhead_of_not_mem hl, lines_of_not_mem hl hne]
  | @closed l s ls hl _ _ ih =>
    have hrewritten : withReturns (l ++ '\n' :: s) = l ++ '\r' :: '\n' :: withReturns s := by
      rw [withReturns, withAhead_append, withAhead_of_not_mem hl, withAhead_cons_self]
      rfl
    rw [hrewritten, (Lined.returned hl (lined_iff.mpr rfl)).lines_eq, List.map_cons, ih, List.map_cons]
  | @returned l s ls hl _ ih =>
    have hreturn : '\n' ∉ l ++ ['\r'] := by
      rw [List.mem_append, not_or]
      exact ⟨hl, by decide⟩
    have hrewritten : withReturns (l ++ '\r' :: '\n' :: s) = (l ++ ['\r']) ++ '\r' :: '\n' :: withReturns s := by
      rw [withReturns, withAhead_append, withAhead_of_not_mem hl, withAhead_cons_of_ne (by decide),
        withAhead_cons_self, List.append_assoc]
      rfl
    rw [hrewritten, (Lined.returned hreturn (lined_iff.mpr rfl)).lines_eq, List.map_cons, ih, List.map_cons,
      trim_append_right rfl]

/-! ## Numerals -/

/-- A newline is no digit, and neither is a carriage return. -/
theorem readDigits_withReturns (bound value : Nat) (past : NumeralFault) (s : List Char) :
    readDigits bound past value (withReturns s) = readDigits bound past value s := by
  induction s generalizing value with
  | nil => rfl
  | cons c s ih =>
    by_cases hc : c = '\n'
    · subst hc
      rfl
    · rw [withReturns, withAhead_cons_of_ne hc, readDigits, readDigits]
      split
      · rfl
      · split
        · exact ih _
        · rfl

theorem readNat_withReturns (bound : Nat) (s : List Char) : readNat bound (withReturns s) = readNat bound s := by
  cases s with
  | nil => rfl
  | cons c s =>
    by_cases hc : c = '\n'
    · subst hc
      rfl
    · have hdigits := readDigits_withReturns bound 0 .tooLarge (c :: s)
      rw [withReturns, withAhead_cons_of_ne hc] at hdigits ⊢
      by_cases hsign : c = '+'
      · subst hsign
        by_cases hs : s = []
        · subst hs
          rfl
        · rw [readNat_plus hs, readNat_plus (mt withAhead_eq_nil_iff.mp hs)]
          exact readDigits_withReturns bound 0 .tooLarge s
      · rw [readNat_of_ne hsign, readNat_of_ne hsign, hdigits]

/-- A numeral is read, or refused for the same reason. -/
theorem readInt_withReturns (below above : Nat) (s : List Char) :
    readInt below above (withReturns s) = readInt below above s := by
  cases s with
  | nil => rfl
  | cons c s =>
    by_cases hc : c = '\n'
    · subst hc
      rfl
    · have hnat := readNat_withReturns above (c :: s)
      rw [withReturns, withAhead_cons_of_ne hc] at hnat ⊢
      by_cases hsign : c = '-'
      · subst hsign
        by_cases hs : s = []
        · subst hs
          rfl
        · have hdigits := readDigits_withReturns below 0 .tooSmall s
          rw [withReturns] at hdigits
          rw [readInt_minus hs, readInt_minus (mt withAhead_eq_nil_iff.mp hs), hdigits]
      · rw [readInt_of_ne hsign, readInt_of_ne hsign, hnat]

end CoreBench.Text
