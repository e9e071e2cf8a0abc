import CoreBench.Proofs.Text.Cut

/-!
The parts of a text, said by how they make it up and not by what takes it apart: a text with blanks around it, the
two sides of the first occurrence of a separator, texts with separators between them, and lines with their endings.

What is proved:
  * `trims_iff`, `firstCut_iff`, `parted_iff`, `lined_iff`: each of these is what the function of the same purpose
    finds, and no text has two of them.
-/

namespace CoreBench.Text

/-! ## Blanks around a text -/

/-- A text that is `t` with blanks around it, and `t` neither starts nor ends with one. -/
structure Trims (s t : List Char) : Prop where
  blanks : ∃ w v, s = w ++ (t ++ v) ∧ allBlank w = true ∧ allBlank v = true
  head : ∀ c ∈ t.head?, isBlank c = false
  last : ∀ c ∈ t.getLast?, isBlank c = false

/-- Blanks behind a text that ends with another character have no meaning. -/
theorem trim_append_blanks {t v : List Char} (hhead : ∀ c ∈ t.head?, isBlank c = false)
    (hlast : ∀ c ∈ t.getLast?, isBlank c = false) (hv : allBlank v = true) : trim (t ++ v) = t := by
  cases t with
  | nil =>
    rw [← List.append_nil v, List.nil_append, trim_append_left hv]
    rfl
  | cons c t =>
    have hfront : (c :: (t ++ v)).dropWhile isBlank = c :: (t ++ v) :=
      List.dropWhile_cons_of_neg (by simp [hhead c rfl])
    have hback : v.reverse.all isBlank = true := by rw [List.all_reverse]; exact hv
    have hself : trim (c :: t) = c :: t := trim_eq_self hhead hlast
    rw [trim, List.dropWhile_cons_of_neg (by simp [hhead c rfl])] at hself
    rw [List.cons_append, trim, hfront, ← List.cons_append, List.reverse_append,
      List.dropWhile_append_of_pos (List.all_eq_true.mp hback)]
    exact hself

/-- What is left of a text starts and ends with other characters than blanks, and only blanks are missing. -/
theorem trims_trim (s : List Char) : Trims s (trim s) := by
  let d := s.dropWhile isBlank
  have hd : d = trim s ++ (d.reverse.takeWhile isBlank).reverse := by
    have happend := congrArg List.reverse (List.takeWhile_append_dropWhile (p := isBlank) (l := d.reverse))
    rw [List.reverse_append, List.reverse_reverse] at happend
    exact happend.symm
  refine ⟨⟨s.takeWhile isBlank, (d.reverse.takeWhile isBlank).reverse, ?_, ?_, ?_⟩, ?_, ?_⟩
  · rw [← hd]
    exact List.takeWhile_append_dropWhile.symm
  · exact List.all_takeWhile
  · rw [allBlank, List.all_reverse]
    exact List.all_takeWhile
  · intro c hc
    obtain ⟨t, ht⟩ : ∃ t, trim s = c :: t := by
      cases h : trim s with
      | nil => rw [h] at hc; cases hc
      | cons e t => rw [h] at hc; exact ⟨t, by rw [Option.some.inj hc]⟩
    have hfirst : d.head? = some c := by rw [hd, ht]; rfl
    have hnot := List.head?_dropWhile_not isBlank s
    rw [show s.dropWhile isBlank = d from rfl, hfirst] at hnot
    simpa using hnot
  · intro c hc
    have hnot := List.head?_dropWhile_not isBlank d.reverse
    rw [show trim s = (d.reverse.dropWhile isBlank).reverse from rfl, List.getLast?_reverse] at hc
    rw [hc] at hnot
    simpa using hnot

theorem trims_iff {s t : List Char} : Trims s t ↔ trim s = t := by
  constructor
  · rintro ⟨⟨w, v, rfl, hw, hv⟩, hhead, hlast⟩
    rw [trim_append_left hw, trim_append_blanks hhead hlast hv]
  · rintro rfl
    exact trims_trim s

/-- A text has blanks only exactly if nothing is left of it. -/
theorem trim_eq_nil_iff {s : List Char} : trim s = [] ↔ allBlank s = true := by
  rw [← trims_iff]
  constructor
  · rintro ⟨⟨w, v, rfl, hw, hv⟩, -, -⟩
    rw [List.nil_append, allBlank, List.all_append]
    exact Bool.and_eq_true_iff.mpr ⟨hw, hv⟩
  · intro h
    exact ⟨⟨s, [], (List.append_nil s).symm, h, rfl⟩, (fun _ hc => nomatch hc), fun _ hc => nomatch hc⟩

/-- Blanks behind a text have no meaning. -/
theorem trim_append_right {v : List Char} (h : allBlank v = true) (s : List Char) : trim (s ++ v) = trim s := by
  obtain ⟨⟨w, u, hs, hw, hu⟩, hhead, hlast⟩ := trims_trim s
  have hblank : allBlank (u ++ v) = true := by
    rw [allBlank, List.all_append]
    exact Bool.and_eq_true_iff.mpr ⟨hu, h⟩
  refine trims_iff.mp ⟨⟨w, u ++ v, ?_, hw, hblank⟩, hhead, hlast⟩
  calc s ++ v = w ++ (trim s ++ u) ++ v := congrArg (· ++ v) hs
    _ = w ++ (trim s ++ (u ++ v)) := by simp only [List.append_assoc]

/-! ## Separators -/

section Separators

variable {α : Type}

/-- The two sides of a separator in a text, where it occurs first. -/
def FirstCut (sep s u v : List α) : Prop :=
  s = u ++ (sep ++ v) ∧ ∀ u' v', s = u' ++ (sep ++ v') → u.length ≤ u'.length

/-- A text that is made of pieces with separators between them, and none in them. -/
structure Parted (sep : α) (s : List α) (ps : List (List α)) : Prop where
  ne_nil : ps ≠ []
  free : ∀ p ∈ ps, sep ∉ p
  joined : [sep].intercalate ps = s

theorem intercalate_cons_cons (sep : α) (p q : List α) (ps : List (List α)) :
    [sep].intercalate (p :: q :: ps) = p ++ sep :: [sep].intercalate (q :: ps) := by
  simp [List.intercalate, List.intersperse]

variable [DecidableEq α]

theorem firstCut_iff {sep s u v : List α} : FirstCut sep s u v ↔ cut? sep s = some (u, v) :=
  cut?_eq_some_iff.symm

/-- Pieces without separators are found again. -/
theorem pieces_intercalate {sep : α} {ps : List (List α)} (hne : ps ≠ [])
    (hfree : ∀ p ∈ ps, sep ∉ p) : pieces sep ([sep].intercalate ps) = ps := by
  induction ps with
  | nil => exact absurd rfl hne
  | cons p ps ih =>
    obtain ⟨hp, hps⟩ := List.forall_mem_cons.mp hfree
    cases ps with
    | nil =>
      have hsingle : [sep].intercalate [p] = p := by simp [List.intercalate]
      rw [hsingle, pieces_of_not_mem hp]
    | cons q ps =>
      rw [intercalate_cons_cons, pieces_append_cons, pieces_of_not_mem hp,
        ih (List.cons_ne_nil q ps) hps]
      rfl

theorem intercalate_pieces (sep : α) (s : List α) : [sep].intercalate (pieces sep s) = s := by
  induction s with
  | nil => rfl
  | cons c s ih =>
    by_cases h : c = sep
    · subst h
      obtain ⟨p, ps, hp⟩ := List.exists_cons_of_ne_nil (pieces_ne_nil c s)
      rw [hp] at ih
      rw [pieces_cons_sep, hp, intercalate_cons_cons, ih]
      rfl
    · obtain ⟨p, ps, hp, e⟩ := pieces_cons_of_ne h s
      rw [hp] at ih
      rw [e]
      cases ps with
      | nil => simpa [List.intercalate] using congrArg (c :: ·) ih
      | cons q ps =>
        rw [intercalate_cons_cons] at ih ⊢
        exact congrArg (c :: ·) ih

theorem parted_iff {sep : α} {s : List α} {ps : List (List α)} :
    Parted sep s ps ↔ pieces sep s = ps := by
  constructor
  · rintro ⟨hne, hfree, rfl⟩
    exact pieces_intercalate hne hfree
  · rintro rfl
    exact ⟨pieces_ne_nil sep s, fun p hp hsep => (mem_of_mem_pieces hp hsep).2 rfl,
      intercalate_pieces sep s⟩

end Separators

/-! ## Lines -/

/-- A text and its lines. Each ends with a newline, or with a carriage return and a newline, which are no part of it;
the last one may lack its ending. -/
inductive Lined : List Char → List (List Char) → Prop
  | nothing : Lined [] []
  | opened {l : List Char} : l ≠ [] → '\n' ∉ l → Lined l [l]
  | closed {l s : List Char} {ls : List (List Char)} : '\n' ∉ l → l.getLast? ≠ some '\r' → Lined s ls →
      Lined (l ++ '\n' :: s) (l :: ls)
  | returned {l s : List Char} {ls : List (List Char)} : '\n' ∉ l → Lined s ls →
      Lined (l ++ '\r' :: '\n' :: s) (l :: ls)

theorem Lined.lines_eq {s : List Char} {ls : List (List Char)} (h : Lined s ls) : lines s = ls := by
  induction h with
  | nothing => rfl
  | opened hne hl => exact lines_of_not_mem hl hne
  | @closed l s ls hl hreturn _ ih =>
    have hkept : dropReturn l = l := by
      rcases List.eq_nil_or_concat l with rfl | ⟨t, c, rfl⟩
      · rfl
      · rw [List.concat_eq_append] at hreturn ⊢
        refine dropReturn_of_last fun hc => hreturn ?_
        rw [hc, List.getLast?_concat]
    rw [lines_cons hl, hkept, ih]
  | @returned l s ls hl _ ih =>
    have hnl : '\n' ∉ l ++ ['\r'] := by
      rw [List.mem_append, not_or]
      exact ⟨hl, by decide⟩
    have hdropped : dropReturn (l ++ ['\r']) = l := by
      rw [dropReturn, before?_append]
      rfl
    have hsplit : l ++ '\r' :: '\n' :: s = (l ++ ['\r']) ++ '\n' :: s := by
      rw [List.append_assoc]
      rfl
    rw [hsplit, lines_cons hnl, hdropped, ih]

/-- Every text has lines: those behind its first newline, and one ahead of it. -/
theorem exists_lined (s : List Char) : ∃ ls, Lined s ls := by
  by_cases h : '\n' ∈ s
  · obtain ⟨l, t, hs, hl⟩ := List.eq_append_cons_of_mem h
    have hlt : t.length < s.length := by
      rw [hs, List.length_append, List.length_cons]
      omega
    obtain ⟨ls, hls⟩ := exists_lined t
    rw [hs]
    by_cases hreturn : l.getLast? = some '\r'
    · obtain ⟨k, rfl⟩ := List.getLast?_eq_some_iff.mp hreturn
      rw [List.append_assoc]
      exact ⟨k :: ls, .returned (fun hk => hl (List.mem_append_left _ hk)) hls⟩
    · exact ⟨l :: ls, .closed hl hreturn hls⟩
  · by_cases hne : s = []
    · exact ⟨[], hne ▸ .nothing⟩
    · exact ⟨[s], .opened hne h⟩
termination_by s.length

theorem lined_iff {s : List Char} {ls : List (List Char)} : Lined s ls ↔ lines s = ls := by
  constructor
  · exact Lined.lines_eq
  · rintro rfl
    obtain ⟨ls, h⟩ := exists_lined s
    rwa [h.lines_eq]

end CoreBench.Text
