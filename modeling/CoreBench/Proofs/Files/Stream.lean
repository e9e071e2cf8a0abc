import CoreBench.Files.Stream

/-!
Streams and the sequence that they deliver. The lines of a sequence are said here without a reader: up to and
including its first newline it is a line, and the lines of the rest follow; without a newline it is one line,
unless it is empty. Readers are said without buffers: what they give out is a sequence cut anywhere.

What is proved:
  * `splits_iff`: a sequence delivered at once has the lines that it splits into;
  * `lines_of_whole`: the lines of a stream depend on nothing but the sequence that it delivers as a whole;
  * `Delivers.whole_eq`, `FailsAfter.whole_eq`: what readers deliver as a whole, if they do;
  * `delivers_inParts`, `failsAfter_failingAt`: streams in parts of one size are such readers.
-/

namespace CoreBench.Files

open CoreBench.Text

/-! ## Lines of a sequence -/

/-- A sequence and its lines, each with its newline; the last one may lack it. -/
inductive Splits : Octets → List Octets → Prop
  | nothing : Splits [] []
  | opened {l : Octets} : l ≠ [] → newline ∉ l → Splits l [l]
  | closed {l d : Octets} {ls : List Octets} :
      newline ∉ l → Splits d ls → Splits (l ++ newline :: d) ((l ++ [newline]) :: ls)

theorem feed_of_not_mem {l : Octets} (h : newline ∉ l) (opened : Octets) :
    feed opened l = ([], l.reverse ++ opened) := by
  induction l generalizing opened with
  | nil => rfl
  | cons c l ih =>
    have hc : c ≠ newline := fun e => h (e ▸ List.mem_cons_self)
    have hl : newline ∉ l := fun hm => h (List.mem_cons_of_mem c hm)
    rw [feed, if_neg hc, ih hl, List.reverse_cons, List.append_assoc]
    rfl

theorem feed_closed {l : Octets} (h : newline ∉ l) (opened d : Octets) :
    feed opened (l ++ newline :: d) =
      ((opened.reverse ++ (l ++ [newline])) :: (feed [] d).1, (feed [] d).2) := by
  rw [feed_append, feed_of_not_mem h]
  simp [feed]

/-- The lines behind an open one, if the rest comes at once: those that it completes, and the one that it leaves
open, unless that is empty. -/
def closeLast (p : List Octets × Octets) : List Octets :=
  p.1 ++ if p.2 = [] then [] else [p.2.reverse]

theorem closeLast_cons (l : Octets) (p : List Octets × Octets) :
    closeLast (l :: p.1, p.2) = l :: closeLast p :=
  rfl

theorem Splits.closeLast_feed {d : Octets} {ls : List Octets} (h : Splits d ls) :
    closeLast (feed [] d) = ls := by
  induction h with
  | nothing => rfl
  | opened hne hl =>
    rw [feed_of_not_mem hl, List.append_nil]
    simp [closeLast, hne]
  | closed hl _ ih =>
    rw [feed_closed hl, closeLast_cons, ih]
    rfl

/-- Every sequence has lines. An octet ahead is a line of its own, or it goes to the first one. -/
theorem exists_splits (d : Octets) : ∃ ls, Splits d ls := by
  induction d with
  | nil => exact ⟨[], .nothing⟩
  | cons c d ih =>
    obtain ⟨ls, h⟩ := ih
    by_cases hc : c = newline
    · subst hc
      exact ⟨_, .closed (l := []) List.not_mem_nil h⟩
    · have hcons : ∀ {l : Octets}, newline ∉ l → newline ∉ c :: l := by
        intro l hl hm
        rcases List.mem_cons.mp hm with e | hm
        · exact hc e.symm
        · exact hl hm
      cases h with
      | nothing => exact ⟨_, .opened (List.cons_ne_nil c []) (hcons List.not_mem_nil)⟩
      | opened _ hl => exact ⟨_, .opened (List.cons_ne_nil c d) (hcons hl)⟩
      | closed hl h => exact ⟨_, .closed (hcons hl) h⟩

theorem splits_iff {d : Octets} {ls : List Octets} :
    Splits d ls ↔ ls = closeLast (feed [] d) := by
  constructor
  · intro h
    exact h.closeLast_feed.symm
  · rintro rfl
    obtain ⟨ls, h⟩ := exists_splits d
    rwa [h.closeLast_feed]

theorem Splits.length_le {d : Octets} {ls : List Octets} (h : Splits d ls) :
    ls.length ≤ d.length := by
  induction h with
  | nothing => exact Nat.le_refl 0
  | opened hne _ => exact List.length_pos_iff.mpr hne
  | closed _ _ ih =>
    rw [List.length_append, List.length_cons, List.length_cons]
    omega

/-- What ends in a newline and what follows it have their lines apart. -/
theorem Splits.append {x y : Octets} {xs ys : List Octets} (hx : Splits (x ++ [newline]) xs)
    (hy : Splits y ys) : Splits (x ++ newline :: y) (xs ++ ys) := by
  rw [splits_iff] at hx hy ⊢
  obtain ⟨ls, rest, hfeed⟩ : ∃ ls rest, feed [] x = (ls, rest) := ⟨_, _, rfl⟩
  rw [feed_append, hfeed] at hx ⊢
  rw [hx, hy]
  simp [feed, closeLast]

/-! ## Lines of a stream -/

/-- A stream that delivers `d` as a whole has the lines that `d` completes and leaves open. -/
theorem linesFrom_of_whole {s : Stream} {d : Octets} (h : s.whole = .ok d) (opened : Octets) :
    linesFrom opened s = (closeLast (feed opened d), none) := by
  induction s generalizing d opened with
  | nil =>
    obtain rfl := Except.ok.inj h
    rfl
  | cons x s ih =>
    cases x with
    | pause => exact ih h opened
    | failure f => cases h
    | part b =>
      cases hs : Stream.whole s with
      | error f => simp [Stream.whole, hs, Except.map] at h
      | ok rest =>
        simp only [Stream.whole, hs, Except.map, Except.ok.injEq] at h
        subst h
        simp only [linesFrom, ih hs, feed_append, closeLast, List.append_assoc]

/-- A stream that fails fails in its lines too, whatever has been completed by then. -/
theorem linesFrom_of_failure {s : Stream} {f : Fault} (h : s.whole = .error f) (opened : Octets) :
    (linesFrom opened s).2 = some f := by
  induction s generalizing opened with
  | nil => cases h
  | cons x s ih =>
    cases x with
    | pause => exact ih h opened
    | failure g =>
      obtain rfl := Except.error.inj h
      rfl
    | part b =>
      cases hs : Stream.whole s with
      | error g =>
        simp only [Stream.whole, hs, Except.map, Except.error.injEq] at h
        subst h
        exact ih hs (feed opened b).2
      | ok rest => simp [Stream.whole, hs, Except.map] at h

theorem whole_part (d : Octets) : Stream.whole [.part d] = .ok d := by
  simp [Stream.whole, Except.map]

/-! ## Readers -/

/-- The ways of a reader to give out `d`: in parts none of which is empty, with pauses anywhere. -/
inductive Delivers : Octets → Stream → Prop
  | ends : Delivers [] []
  | pauses {d : Octets} {s : Stream} : Delivers d s → Delivers d (.pause :: s)
  | gives {b d : Octets} {s : Stream} :
      b ≠ [] → Delivers d s → Delivers (b ++ d) (.part b :: s)

/-- The ways of a reader of `d` that fails once `k` octets have been given out and more is asked for. If `d` is
shorter, its end is met first. -/
inductive FailsAfter (f : Fault) : Nat → Octets → Stream → Prop
  | ends {k : Nat} : 0 < k → FailsAfter f k [] []
  | fails {d : Octets} : FailsAfter f 0 d [.failure f]
  | pauses {k : Nat} {d : Octets} {s : Stream} :
      FailsAfter f k d s → FailsAfter f k d (.pause :: s)
  | gives {k : Nat} {b d : Octets} {s : Stream} :
      b ≠ [] → FailsAfter f k d s → FailsAfter f (b.length + k) (b ++ d) (.part b :: s)

theorem Delivers.whole_eq {d : Octets} {s : Stream} (h : Delivers d s) : s.whole = .ok d := by
  induction h with
  | ends => rfl
  | pauses _ ih => exact ih
  | gives _ _ ih => rw [Stream.whole, ih]; rfl

theorem FailsAfter.whole_eq {f : Fault} {k : Nat} {d : Octets} {s : Stream}
    (h : FailsAfter f k d s) : s.whole = if k ≤ d.length then .error f else .ok d := by
  induction h with
  | ends hk => exact (if_neg (Nat.not_le.mpr hk)).symm
  | fails => exact (if_pos (Nat.zero_le _)).symm
  | pauses _ ih => exact ih
  | @gives k b d s _ _ ih =>
    have hiff : b.length + k ≤ (b ++ d).length ↔ k ≤ d.length := by
      rw [List.length_append]
      omega
    simp only [Stream.whole, ih, hiff]
    split <;> rfl

/-- A reader that has given out what it may fails next. -/
theorem Delivers.failsAfter {d : Octets} {s : Stream} (h : Delivers d s) (f : Fault)
    (rest : Octets) : FailsAfter f d.length (d ++ rest) (s ++ [.failure f]) := by
  induction h with
  | ends => exact .fails
  | pauses _ ih => exact .pauses ih
  | @gives b d s hb _ ih =>
    rw [List.length_append, List.append_assoc]
    exact .gives hb ih

/-- A reader that may give out more than there is meets the end. -/
theorem Delivers.failsAfter_of_lt {d : Octets} {s : Stream} (h : Delivers d s) (f : Fault) {k : Nat}
    (hk : d.length < k) : FailsAfter f k d s := by
  induction h generalizing k with
  | ends => exact .ends hk
  | pauses _ ih => exact .pauses (ih hk)
  | @gives b d s hb _ ih =>
    rw [List.length_append] at hk
    have := FailsAfter.gives hb (ih (k := k - b.length) (by omega))
    rwa [Nat.add_sub_cancel' (by omega)] at this

theorem cutParts_spec (n : Nat) {fuel : Nat} {b : Octets} (h : b.length ≤ fuel) :
    (cutParts n fuel b).flatten = b ∧ ∀ p ∈ cutParts n fuel b, p ≠ [] := by
  induction fuel generalizing b with
  | zero =>
    obtain rfl := List.eq_nil_of_length_eq_zero (Nat.le_zero.mp h)
    exact ⟨rfl, fun p hp => absurd hp List.not_mem_nil⟩
  | succ fuel ih =>
    cases b with
    | nil => exact ⟨rfl, fun p hp => absurd hp List.not_mem_nil⟩
    | cons c b =>
      have hdrop : (b.drop n).length ≤ fuel := by
        rw [List.length_cons] at h
        rw [List.length_drop]
        omega
      obtain ⟨hflat, hne⟩ := ih hdrop
      constructor
      · rw [cutParts, List.flatten_cons, hflat, List.cons_append, List.take_append_drop]
      · intro p hp
        rcases List.mem_cons.mp hp with rfl | hp
        · exact List.cons_ne_nil c _
        · exact hne p hp

theorem delivers_inParts (size : Nat) (paused : Bool) (b : Octets) :
    Delivers b (Stream.inParts size paused b) := by
  obtain ⟨hflat, hne⟩ := cutParts_spec (size - 1) (Nat.le_refl b.length)
  unfold Stream.inParts
  -- Of the parts, only their sequence and that none is empty counts.
  generalize cutParts (size - 1) b.length b = ps at hflat hne
  subst hflat
  induction ps with
  | nil => exact .ends
  | cons p ps ih =>
    have hp : p ≠ [] := hne p List.mem_cons_self
    have hrest := ih fun q hq => hne q (List.mem_cons_of_mem p hq)
    rw [List.flatten_cons, List.flatMap_cons]
    cases paused with
    | false => exact .gives hp hrest
    | true => exact .pauses (.gives hp hrest)

theorem failsAfter_failingAt (limit size : Nat) (paused : Bool) (f : Fault) (b : Octets) :
    FailsAfter f limit b (Stream.failingAt limit size paused f b) := by
  unfold Stream.failingAt
  split
  · next h =>
    have := (delivers_inParts size paused (b.take limit)).failsAfter f (b.drop limit)
    rwa [List.length_take, Nat.min_eq_left h, List.take_append_drop] at this
  · next h => exact (delivers_inParts size paused b).failsAfter_of_lt f (Nat.lt_of_not_le h)

end CoreBench.Files
