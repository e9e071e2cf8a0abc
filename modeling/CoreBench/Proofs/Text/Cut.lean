import CoreBench.Text.Cut

/-!
Laws of cutting. A text is seen as what was written next to each other, and each law says what cutting does to
the parts.

What is proved:
  * `cut?_eq_some_iff`: the two sides of a separator are those of its first occurrence, and of no other;
  * `cut?_append_of_no_start`: a text in which the separator does not start is passed;
  * `cut?_append_sep`: a separator whose first element does not come again in it is found behind every text
    that does not hold it, so it cannot begin in that text and end in itself;
  * `cut?_append_right`: what is behind a text leaves its first occurrence where it is;
  * `pieces_append_cons`: the pieces of two texts with a separator between them are the pieces of both;
  * `lines_append`, `lines_append_of_closed`: the same for lines.
-/

namespace CoreBench.Text

section Occurrence

variable {α : Type} [DecidableEq α]

theorem after?_append (p t : List α) : after? p (p ++ t) = some t :=
  after?_eq_some.mpr rfl

theorem before?_append (t q : List α) : before? q (t ++ q) = some t :=
  before?_eq_some.mpr rfl

theorem after?_eq_none_of_head {x y : α} (h : x ≠ y) (p s : List α) :
    after? (x :: p) (y :: s) = none := by
  simp [after?, h]

/-- A text without one of the elements of `p` does not start with `p`. -/
theorem after?_eq_none_of_not_mem {x : α} {p s : List α} (hp : x ∈ p) (hs : x ∉ s) :
    after? p s = none := by
  cases h : after? p s with
  | none => rfl
  | some t =>
    refine absurd ?_ hs
    rw [after?_eq_some.mp h]
    exact List.mem_append_left t hp

/-- What has been passed is put back ahead of the left side. -/
theorem cutFrom_eq (sep passed s : List α) :
    cutFrom sep passed s = (cut? sep s).map fun p => (passed.reverse ++ p.1, p.2) := by
  induction s generalizing passed with
  | nil =>
    simp only [cut?, cutFrom]
    split <;> simp
  | cons c s ih =>
    simp only [cut?, cutFrom]
    split
    · simp
    · rw [ih (c :: passed), ih [c], Option.map_map]
      congr 1
      funext p
      simp

/-- The search goes on behind an element at which the separator does not start. -/
theorem cut?_cons (sep : List α) (c : α) (s : List α) :
    cut? sep (c :: s) =
      match after? sep (c :: s) with
      | some rest => some ([], rest)
      | none => (cut? sep s).map fun p => (c :: p.1, p.2) := by
  show cutFrom sep [] (c :: s) = _
  simp only [cutFrom]
  cases after? sep (c :: s) with
  | some rest => rfl
  | none => exact cutFrom_eq sep [c] s

/-- The two sides of the first occurrence, and of no other. -/
theorem cut?_eq_some_iff {sep s u v : List α} :
    cut? sep s = some (u, v) ↔
      s = u ++ (sep ++ v) ∧ ∀ u' v', s = u' ++ (sep ++ v') → u.length ≤ u'.length := by
  induction s generalizing u with
  | nil =>
    show (if sep = [] then some (([] : List α).reverse, []) else none) = some (u, v) ↔ _
    by_cases hsep : sep = []
    · subst hsep
      constructor
      · intro h
        simp only [if_true, List.reverse_nil, Option.some.injEq, Prod.mk.injEq] at h
        obtain ⟨rfl, rfl⟩ := h
        exact ⟨rfl, fun u' v' _ => Nat.zero_le _⟩
      · rintro ⟨h, -⟩
        simp only [List.nil_append, List.nil_eq, List.append_eq_nil_iff] at h
        simp [h]
    · simp [hsep]
  | cons c s ih =>
    rw [cut?_cons]
    cases ha : after? sep (c :: s) with
    | some rest =>
      have hs : c :: s = sep ++ rest := after?_eq_some.mp ha
      simp only [Option.some.injEq, Prod.mk.injEq]
      constructor
      · rintro ⟨rfl, rfl⟩
        exact ⟨hs, fun u' v' _ => Nat.zero_le _⟩
      · rintro ⟨h, hmin⟩
        have hu : u = [] := List.eq_nil_of_length_eq_zero (Nat.le_zero.mp (hmin [] rest hs))
        subst hu
        exact ⟨rfl, List.append_cancel_left (hs.symm.trans h)⟩
    | none =>
      simp only [Option.map_eq_some_iff, Prod.exists, Prod.mk.injEq]
      -- an occurrence cannot be at the very start, so it lies in what follows
      have hpos : ∀ {u' v' : List α}, c :: s = u' ++ (sep ++ v') →
          ∃ w, u' = c :: w ∧ s = w ++ (sep ++ v') := by
        intro u' v' h
        cases u' with
        | nil => rw [List.nil_append] at h; simp [h, after?_append] at ha
        | cons d w =>
          obtain ⟨rfl, hw⟩ := List.cons.inj h
          exact ⟨w, rfl, hw⟩
      constructor
      · rintro ⟨w, v', hw, rfl, rfl⟩
        obtain ⟨hs, hmin⟩ := ih.mp hw
        refine ⟨by rw [hs]; rfl, fun u' t h => ?_⟩
        obtain ⟨w', rfl, hw'⟩ := hpos h
        exact Nat.succ_le_succ (hmin w' t hw')
      · rintro ⟨h, hmin⟩
        obtain ⟨w, rfl, hs⟩ := hpos h
        refine ⟨w, v, ih.mpr ⟨hs, fun u' t h' => ?_⟩, rfl, rfl⟩
        exact Nat.le_of_succ_le_succ (hmin (c :: u') t (by rw [h']; rfl))

theorem cut?_eq_append {sep s u v : List α} (h : cut? sep s = some (u, v)) :
    s = u ++ (sep ++ v) :=
  (cut?_eq_some_iff.mp h).1

theorem cut?_isSome_of_append (sep u v : List α) : (cut? sep (u ++ (sep ++ v))).isSome := by
  induction u with
  | nil =>
    cases sep with
    | nil => cases v <;> rfl
    | cons c sep =>
      show (cut? (c :: sep) (c :: (sep ++ v))).isSome
      rw [cut?_cons, ← List.cons_append, after?_append]
      rfl
  | cons c u ih =>
    rw [List.cons_append, cut?_cons]
    split
    · rfl
    · rw [Option.isSome_map]
      exact ih

/-- A separator is found exactly in the texts that hold it. -/
theorem occursIn_iff {sep s : List α} : occursIn sep s = true ↔ sep <:+: s := by
  constructor
  · intro h
    obtain ⟨⟨u, v⟩, h⟩ := Option.isSome_iff_exists.mp h
    exact ⟨u, v, by rw [cut?_eq_append h, List.append_assoc]⟩
  · rintro ⟨u, v, rfl⟩
    rw [List.append_assoc]
    exact cut?_isSome_of_append sep u v

/-- The side ahead of the first occurrence holds none. -/
theorem not_infix_of_cut? {sep s u v : List α} (hsep : sep ≠ [])
    (h : cut? sep s = some (u, v)) : ¬ sep <:+: u := by
  rintro ⟨x, y, rfl⟩
  obtain ⟨hs, hmin⟩ := cut?_eq_some_iff.mp h
  have hle := hmin x (y ++ (sep ++ v)) (by rw [hs]; simp only [List.append_assoc])
  have := List.length_pos_iff.mpr hsep
  simp only [List.length_append] at hle
  omega

/-- A text in which the separator does not start, whatever is behind it, is passed. -/
theorem cut?_append_of_no_start {sep u s : List α}
    (h : ∀ w, w <:+ u → w ≠ [] → after? sep (w ++ s) = none) :
    cut? sep (u ++ s) = (cut? sep s).map fun p => (u ++ p.1, p.2) := by
  induction u with
  | nil => simp
  | cons d u ih =>
    have hhere := h (d :: u) (List.suffix_refl _) (List.cons_ne_nil d u)
    have hrest := ih fun w hw => h w (hw.trans (List.suffix_cons d u))
    rw [List.cons_append] at hhere ⊢
    rw [cut?_cons, hhere]
    simp only [hrest, Option.map_map]
    rfl

/-- A separator that starts in a text and is not in it ends behind that text. -/
theorem exists_of_after?_append {sep w s rest : List α} (h : after? sep (w ++ s) = some rest)
    (hw : ¬ sep <:+: w) : ∃ x, x ≠ [] ∧ sep = w ++ x ∧ s = x ++ rest := by
  rcases List.append_eq_append_iff.mp (after?_eq_some.mp h) with ⟨x, hsep, hs⟩ | ⟨y, hwhole, -⟩
  · refine ⟨x, ?_, hsep, hs⟩
    rintro rfl
    rw [List.append_nil] at hsep
    exact hw (hsep ▸ List.infix_refl w)
  · exact absurd ⟨[], y, hwhole.symm⟩ hw

/-- What lacks the first element of the separator is passed. -/
theorem cut?_append_of_not_mem {c : α} {sep u : List α} (hu : c ∉ u) (s : List α) :
    cut? (c :: sep) (u ++ s) = (cut? (c :: sep) s).map fun p => (u ++ p.1, p.2) := by
  apply cut?_append_of_no_start
  intro w hw hne
  obtain ⟨d, w, rfl⟩ := List.exists_cons_of_ne_nil hne
  have hd : c ≠ d := fun h => hu (h ▸ hw.subset List.mem_cons_self)
  exact after?_eq_none_of_head hd sep (w ++ s)

/-- What does not hold the separator is passed if it ends with an element that is not in the separator. -/
theorem cut?_append_of_getLast? {c : α} {sep u : List α} (hc : c ∉ sep) (hlast : u.getLast? = some c)
    (hu : ¬ sep <:+: u) (s : List α) :
    cut? sep (u ++ s) = (cut? sep s).map fun p => (u ++ p.1, p.2) := by
  apply cut?_append_of_no_start
  intro w hw hne
  apply Option.eq_none_iff_forall_ne_some.mpr
  intro rest hrest
  obtain ⟨x, -, rfl, -⟩ := exists_of_after?_append hrest fun hin => hu (hin.trans hw.isInfix)
  have hmem : c ∈ w := by
    obtain ⟨v, rfl⟩ := hw
    rw [List.getLast?_append, List.getLast?_eq_some_getLast hne, Option.some_or] at hlast
    exact Option.some.inj hlast ▸ List.getLast_mem hne
  exact hc (List.mem_append_left x hmem)

/-- A text without the first element of the separator is not cut. -/
theorem cut?_eq_none_of_not_mem {c : α} {sep s : List α} (hs : c ∉ s) : cut? (c :: sep) s = none := by
  have happend : cut? (c :: sep) (s ++ []) = _ := cut?_append_of_not_mem hs []
  rwa [List.append_nil] at happend

theorem cut?_sep_append (sep v : List α) : cut? sep (sep ++ v) = some ([], v) :=
  cut?_eq_some_iff.mpr ⟨rfl, fun _ _ _ => Nat.zero_le _⟩

/-- A separator whose first element does not come again in it is found right behind every text that does not
hold it. -/
theorem cut?_append_sep {c : α} {sep u : List α} (hc : c ∉ sep) (hu : ¬ (c :: sep) <:+: u)
    (v : List α) : cut? (c :: sep) (u ++ (c :: sep ++ v)) = some (u, v) := by
  have hstart : ∀ w, w <:+ u → w ≠ [] → after? (c :: sep) (w ++ (c :: sep ++ v)) = none := by
    intro w hw hne
    apply Option.eq_none_iff_forall_ne_some.mpr
    intro rest hrest
    -- What started in `w` would run over the place where the separator starts again, and then hold `c` twice.
    obtain ⟨x, hx, hsep, hbehind⟩ := exists_of_after?_append hrest fun hin => hu (hin.trans hw.isInfix)
    obtain ⟨d, w, rfl⟩ := List.exists_cons_of_ne_nil hne
    obtain ⟨e, x, rfl⟩ := List.exists_cons_of_ne_nil hx
    obtain ⟨rfl, -⟩ := List.cons.inj hbehind
    obtain ⟨-, rfl⟩ := List.cons.inj hsep
    exact hc (List.mem_append_right w List.mem_cons_self)
  rw [cut?_append_of_no_start hstart, cut?_sep_append, Option.map_some, List.append_nil]

/-- What is behind a text leaves the first occurrence in it where it is. -/
theorem cut?_append_right {sep s u v : List α} (h : cut? sep s = some (u, v)) (t : List α) :
    cut? sep (s ++ t) = some (u, v ++ t) := by
  obtain ⟨rfl, hmin⟩ := cut?_eq_some_iff.mp h
  refine cut?_eq_some_iff.mpr ⟨by simp only [List.append_assoc], fun u' v' h' => ?_⟩
  apply Nat.le_of_not_lt
  intro hlt
  -- An occurrence further ahead would end ahead of that one, so it would be in the text itself.
  have hlen : (u' ++ sep).length ≤ (u ++ (sep ++ v)).length := by
    simp only [List.length_append]
    omega
  have hwhole : u' ++ sep <+: u ++ (sep ++ v) ++ t := ⟨v', by rw [h', List.append_assoc]⟩
  obtain ⟨y, hy⟩ := List.prefix_of_prefix_length_le hwhole (List.prefix_append _ t) hlen
  have hle := hmin u' y (by rw [← hy, List.append_assoc])
  omega

end Occurrence

/-! ## Pieces -/

section Pieces

variable {α : Type} [DecidableEq α]

theorem pieces_nil (sep : α) : pieces sep [] = [[]] := rfl

theorem pieces_cons_sep (sep : α) (s : List α) : pieces sep (sep :: s) = [] :: pieces sep s := by
  simp [pieces]

theorem pieces_cons_of_ne {sep c : α} (h : c ≠ sep) (s : List α) :
    ∃ p ps, pieces sep s = p :: ps ∧ pieces sep (c :: s) = (c :: p) :: ps := by
  obtain ⟨p, ps, hp⟩ := List.exists_cons_of_ne_nil (pieces_ne_nil sep s)
  refine ⟨p, ps, hp, ?_⟩
  simp only [pieces, List.foldr_cons, h, if_false] at hp ⊢
  rw [hp]

/-- The pieces of two texts with a separator between them. -/
theorem pieces_append_cons (sep : α) (s t : List α) :
    pieces sep (s ++ sep :: t) = pieces sep s ++ pieces sep t := by
  induction s with
  | nil => exact pieces_cons_sep sep t
  | cons c s ih =>
    rw [List.cons_append]
    by_cases h : c = sep
    · subst h
      rw [pieces_cons_sep, pieces_cons_sep, ih]
      rfl
    · obtain ⟨p, ps, hp, e⟩ := pieces_cons_of_ne h s
      obtain ⟨q, qs, hq, e'⟩ := pieces_cons_of_ne h (s ++ sep :: t)
      rw [ih, hp] at hq
      obtain ⟨rfl, rfl⟩ := List.cons.inj hq
      rw [e, e']
      rfl

/-- A text without separators is one piece. -/
theorem pieces_of_not_mem {sep : α} {s : List α} (h : sep ∉ s) : pieces sep s = [s] := by
  induction s with
  | nil => rfl
  | cons c s ih =>
    have hc : c ≠ sep := fun e => h (e ▸ List.mem_cons_self)
    obtain ⟨p, ps, hp, e⟩ := pieces_cons_of_ne hc s
    rw [ih fun hm => h (List.mem_cons_of_mem c hm)] at hp
    obtain ⟨rfl, rfl⟩ := List.cons.inj hp
    exact e

/-- What stands ahead of the first separator belongs to the first piece. -/
theorem pieces_append_of_not_mem {sep : α} {u : List α} (h : sep ∉ u) (s : List α) :
    ∃ p ps, pieces sep s = p :: ps ∧ pieces sep (u ++ s) = (u ++ p) :: ps := by
  induction u with
  | nil =>
    obtain ⟨p, ps, hp⟩ := List.exists_cons_of_ne_nil (pieces_ne_nil sep s)
    exact ⟨p, ps, hp, hp⟩
  | cons c u ih =>
    have hc : c ≠ sep := fun e => h (e ▸ List.mem_cons_self)
    obtain ⟨p, ps, hp, e⟩ := ih fun hm => h (List.mem_cons_of_mem c hm)
    obtain ⟨q, qs, hq, e'⟩ := pieces_cons_of_ne hc (u ++ s)
    rw [e] at hq
    obtain ⟨rfl, rfl⟩ := List.cons.inj hq
    exact ⟨p, ps, hp, e'⟩

/-- A piece is made of elements of the text, none of them the separator. -/
theorem mem_of_mem_pieces {sep x : α} {s p : List α} (hp : p ∈ pieces sep s) (hx : x ∈ p) :
    x ∈ s ∧ x ≠ sep := by
  induction s generalizing p with
  | nil =>
    rw [pieces_nil, List.mem_singleton] at hp
    subst hp
    exact absurd hx List.not_mem_nil
  | cons c s ih =>
    by_cases h : c = sep
    · subst h
      rw [pieces_cons_sep] at hp
      rcases List.mem_cons.mp hp with rfl | hp
      · exact absurd hx List.not_mem_nil
      · obtain ⟨hm, hne⟩ := ih hp hx
        exact ⟨List.mem_cons_of_mem c hm, hne⟩
    · obtain ⟨q, qs, hq, e⟩ := pieces_cons_of_ne h s
      rw [e] at hp
      rw [hq] at ih
      rcases List.mem_cons.mp hp with rfl | hp
      · rcases List.mem_cons.mp hx with rfl | hx
        · exact ⟨List.mem_cons_self, h⟩
        · obtain ⟨hm, hne⟩ := ih List.mem_cons_self hx
          exact ⟨List.mem_cons_of_mem c hm, hne⟩
      · obtain ⟨hm, hne⟩ := ih (List.mem_cons_of_mem q hp) hx
        exact ⟨List.mem_cons_of_mem c hm, hne⟩

end Pieces

/-! ## Lines -/

theorem mem_of_mem_dropReturn {l : List Char} {x : Char} (h : x ∈ dropReturn l) : x ∈ l := by
  unfold dropReturn at h
  cases hb : before? ['\r'] l with
  | none => rwa [hb] at h
  | some t =>
    rw [hb] at h
    rw [before?_eq_some.mp hb]
    exact List.mem_append_left _ h

theorem dropReturn_of_last {l : List Char} {c : Char} (hc : c ≠ '\r') :
    dropReturn (l ++ [c]) = l ++ [c] := by
  have : before? ['\r'] (l ++ [c]) = none := by
    simp [before?, after?, Ne.symm hc]
  rw [dropReturn, this]
  rfl

/-- The lines of two texts with a newline between them. -/
theorem lines_append (s t : List Char) :
    lines (s ++ '\n' :: t) = (pieces '\n' s).map dropReturn ++ lines t := by
  obtain ⟨p, ps, hp⟩ := List.exists_cons_of_ne_nil (pieces_ne_nil '\n' t)
  have hlast : (pieces '\n' s ++ p :: ps).getLastD [] = (p :: ps).getLastD [] := by
    rw [List.getLastD_eq_getLast?, List.getLastD_eq_getLast?, List.getLast?_append,
      List.getLast?_cons]
    rfl
  simp only [lines, pieces_append_cons, hp, hlast, List.dropLast_append_cons, List.map_append,
    List.append_assoc]

/-- A text of whole lines: it is empty or ends with a newline. -/
def Closed (s : List Char) : Prop :=
  s = [] ∨ s.getLast? = some '\n'

/-- What stands behind whole lines has lines of its own. -/
theorem lines_append_of_closed {s : List Char} (hs : Closed s) (t : List Char) :
    lines (s ++ t) = lines s ++ lines t := by
  rcases hs with rfl | hlast
  · rfl
  · obtain ⟨u, rfl⟩ := List.getLast?_eq_some_iff.mp hlast
    have hnone : lines [] = [] := rfl
    rw [List.append_assoc, List.singleton_append, lines_append, lines_append, hnone, List.append_nil]

theorem lines_cons {l : List Char} (h : '\n' ∉ l) (t : List Char) :
    lines (l ++ '\n' :: t) = dropReturn l :: lines t := by
  rw [lines_append, pieces_of_not_mem h]
  rfl

theorem lines_of_not_mem {l : List Char} (hl : '\n' ∉ l) (hne : l ≠ []) : lines l = [l] := by
  simp [lines, pieces_of_not_mem hl, hne]

/-- A line is made of characters of the text, none of them a newline. -/
theorem mem_of_mem_lines {s l : List Char} {x : Char} (hl : l ∈ lines s) (hx : x ∈ l) :
    x ∈ s ∧ x ≠ '\n' := by
  simp only [lines, List.mem_append, List.mem_map] at hl
  rcases hl with ⟨p, hp, rfl⟩ | hl
  · exact mem_of_mem_pieces (List.dropLast_subset _ hp) (mem_of_mem_dropReturn hx)
  · split at hl
    · exact absurd hl List.not_mem_nil
    · rw [List.mem_singleton] at hl
      subst hl
      refine mem_of_mem_pieces ?_ hx
      obtain ⟨p, ps, hp⟩ := List.exists_cons_of_ne_nil (pieces_ne_nil '\n' s)
      rw [hp, List.getLastD_cons]
      exact List.getLastD_mem_cons

/-! ## Trimming -/

/-- Blanks ahead of a text have no meaning. -/
theorem trim_append_left {w : List Char} (h : allBlank w = true) (s : List Char) :
    trim (w ++ s) = trim s := by
  rw [trim, List.dropWhile_append_of_pos (List.all_eq_true.mp h)]
  rfl

/-- A text that starts and ends with other characters than blanks is left as it is. -/
theorem trim_eq_self {s : List Char} (hhead : ∀ c ∈ s.head?, isBlank c = false)
    (hlast : ∀ c ∈ s.getLast?, isBlank c = false) : trim s = s := by
  have hfront : s.dropWhile isBlank = s := by
    cases s with
    | nil => rfl
    | cons c s => exact List.dropWhile_cons_of_neg (by simp [hhead c rfl])
  have hback : s.reverse.dropWhile isBlank = s.reverse := by
    cases hs : s.reverse with
    | nil => rfl
    | cons c t =>
      have hc : s.getLast? = some c := by rw [← List.head?_reverse, hs]; rfl
      exact List.dropWhile_cons_of_neg (by simp [hlast c hc])
  rw [trim, hfront, hback, List.reverse_reverse]

theorem mem_of_mem_trim {s : List Char} {c : Char} (h : c ∈ trim s) : c ∈ s := by
  have h := List.dropWhile_subset isBlank (List.mem_reverse.mp h)
  exact List.dropWhile_subset isBlank (List.mem_reverse.mp h)

end CoreBench.Text
