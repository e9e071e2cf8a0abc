import CoreBench.Proofs.Text.Endings
import CoreBench.Proofs.Trace.Counts

/-!
Counting by lines. A mnemonic has neither a newline nor a carriage return, so none reaches into the ending of a line,
and a line counts for the same width with its ending and without it. Hence the counts of a log are the sums over the
texts between its newlines, which do not depend on their order.

What is proved:
  * `Width.ofLine?_concat`: octets that are in no mnemonic count for nothing at the end of a line;
  * `ofOctets_eq_pieces`: the counts of a log are those of the texts between its newlines;
  * `ofLines_perm`: counts of lines do not depend on the order of the lines;
  * `ofOctets_append_newline_append`, `ofOctets_withReturns`: a newline parts what is counted, and so does one with a
    carriage return ahead of it;
  * `ofOctets_by_lines`: what follows for logs that are joined, reordered, closed, or rewritten.
-/

namespace CoreBench.Trace

open CoreBench.Files CoreBench.Text

/-! ## Endings of lines -/

/-- The octet that some systems put ahead of a newline. -/
def carriageReturn : UInt8 := 13

/-- A line without its newline. -/
def bare (line : Octets) : Octets :=
  (before? [newline] line).getD line

/-- A log with a carriage return ahead of each of its newlines. -/
def withReturns (d : Octets) : Octets :=
  d.flatMap fun c => if c = newline then [carriageReturn, newline] else [c]

theorem bare_concat_newline (l : Octets) : bare (l ++ [newline]) = l := by
  rw [bare, before?_append]
  rfl

theorem bare_of_not_mem {l : Octets} (h : newline ∉ l) : bare l = l := by
  have hnone : before? [newline] l = none := by
    cases hbefore : before? [newline] l with
    | none => rfl
    | some t =>
      apply absurd _ h
      rw [before?_eq_some.mp hbefore]
      exact List.mem_append_right t List.mem_cons_self
  rw [bare, hnone]
  rfl

theorem withReturns_eq (d : Octets) : withReturns d = withAhead newline carriageReturn d :=
  rfl

/-- A text that lacks the last element of another one is in it only ahead of that element. -/
theorem infix_concat_iff_of_not_mem {α : Type} {m l : List α} {c : α} (h : c ∉ m) :
    m <:+: l ++ [c] ↔ m <:+: l := by
  constructor
  · intro hinfix
    rcases List.infix_concat_iff.mp hinfix with hsuffix | hinfix
    · rcases List.suffix_concat_iff.mp hsuffix with rfl | ⟨t, rfl, -⟩
      · exact List.nil_infix
      · exact absurd (List.mem_append_right t List.mem_cons_self) h
    · exact hinfix
  · intro hinfix
    exact hinfix.trans (List.prefix_append l [c]).isInfix

namespace Width

theorem newline_not_mem_marker (w : Width) : newline ∉ w.marker := by
  cases w <;> decide

theorem carriageReturn_not_mem_marker (w : Width) : carriageReturn ∉ w.marker := by
  cases w <;> decide

/-- An octet that is in no mnemonic counts for nothing at the end of a line. -/
theorem ofLine?_concat {c : UInt8} (h : ∀ w : Width, c ∉ w.marker) (l : Octets) :
    ofLine? (l ++ [c]) = ofLine? l := by
  have hmarks : marks (l ++ [c]) = marks l := by
    funext w
    apply Bool.eq_iff_iff.mpr
    show occursIn w.marker (l ++ [c]) = true ↔ occursIn w.marker l = true
    rw [occursIn_iff, occursIn_iff, infix_concat_iff_of_not_mem (h w)]
  rw [ofLine?, hmarks]
  rfl

end Width

/-! ## Counts of lines -/

namespace Counts

theorem ofLine_concat {c : UInt8} (h : ∀ w : Width, c ∉ w.marker) (l : Octets) :
    ofLine (l ++ [c]) = ofLine l := by
  rw [ofLine, Width.ofLine?_concat h]
  rfl

theorem ext_get {a b : Counts} (h : ∀ w, a.get w = b.get w) : a = b :=
  Counts.ext (h .word) (h .half) (h .byte)

/-- Counts are numbers of lines, so the order of the lines does not matter. -/
theorem ofLines_perm {xs ys : List Octets} (h : xs.Perm ys) : ofLines xs = ofLines ys := by
  apply ext_get
  intro w
  rw [get_ofLines, get_ofLines]
  exact h.countP_eq _

theorem ofLines_singleton (l : Octets) : ofLines [l] = ofLine l := by
  rw [ofLines_cons]
  exact add_zero (ofLine l)

/-! ## Counts of logs -/

theorem ofOctets_of_splits {d : Octets} {ls : List Octets} (h : Splits d ls) :
    ofOctets d = ofLines ls := by
  rw [ofOctets_eq, ← splits_iff.mp h]

/-- Lines count for the same without their newlines. -/
theorem ofLines_map_bare {d : Octets} {ls : List Octets} (h : Splits d ls) :
    ofLines (ls.map bare) = ofLines ls := by
  induction h with
  | nothing => rfl
  | opened _ hl => rw [List.map_cons, bare_of_not_mem hl, List.map_nil]
  | closed _ _ ih =>
    rw [List.map_cons, ofLines_cons, bare_concat_newline, ih, ofLines_cons,
      ofLine_concat Width.newline_not_mem_marker]

theorem newline_not_mem_bare {d : Octets} {ls : List Octets} (h : Splits d ls) :
    ∀ p ∈ ls.map bare, newline ∉ p := by
  induction h with
  | nothing => exact fun _ hp => absurd hp List.not_mem_nil
  | opened _ hl => simpa [bare_of_not_mem hl] using hl
  | closed hl _ ih =>
    rw [List.map_cons, bare_concat_newline]
    exact List.forall_mem_cons.mpr ⟨hl, ih⟩

/-- The texts between the newlines of a log are its lines without them, and behind a last newline one more that is
empty and counts for nothing. -/
theorem ofOctets_eq_pieces (d : Octets) : ofOctets d = ofLines (pieces newline d) := by
  obtain ⟨ls, h⟩ := exists_splits d
  rw [ofOctets_of_splits h]
  induction h with
  | nothing => rfl
  | opened _ hl => rw [pieces_of_not_mem hl]
  | closed hl _ ih =>
    rw [pieces_append_cons, pieces_of_not_mem hl, List.singleton_append, ofLines_cons, ofLines_cons,
      ofLine_concat Width.newline_not_mem_marker, ih]

/-- A newline parts what is counted. -/
theorem ofOctets_append_newline_append (x y : Octets) :
    ofOctets (x ++ newline :: y) = (ofOctets x).add (ofOctets y) := by
  rw [ofOctets_eq_pieces, ofOctets_eq_pieces x, ofOctets_eq_pieces y, pieces_append_cons, ofLines_append]

theorem ofOctets_concat_newline (d : Octets) : ofOctets (d ++ [newline]) = ofOctets d := by
  rw [ofOctets_append_newline_append]
  exact add_zero (ofOctets d)

theorem ofOctets_of_not_mem {l : Octets} (h : newline ∉ l) : ofOctets l = ofLine l := by
  rw [ofOctets_eq_pieces, pieces_of_not_mem h, ofLines_singleton]

theorem ofOctets_intercalate {ps : List Octets} (h : ∀ p ∈ ps, newline ∉ p) :
    ofOctets ([newline].intercalate ps) = ofLines ps := by
  cases ps with
  | nil => rfl
  | cons p ps => rw [ofOctets_eq_pieces, pieces_intercalate (List.cons_ne_nil p ps) h]

theorem ofOctets_flatMap_closed {ps : List Octets} (h : ∀ p ∈ ps, newline ∉ p) :
    ofOctets (ps.flatMap (· ++ [newline])) = ofLines ps := by
  induction ps with
  | nil => rfl
  | cons p ps ih =>
    obtain ⟨hp, hps⟩ := List.forall_mem_cons.mp h
    rw [List.flatMap_cons, List.append_assoc, List.singleton_append, ofOctets_append_newline_append,
      ofOctets_of_not_mem hp, ih hps, ofLines_cons]

theorem ofOctets_concat_carriageReturn {l : Octets} (h : newline ∉ l) :
    ofOctets (l ++ [carriageReturn]) = ofOctets l := by
  have hconcat : newline ∉ l ++ [carriageReturn] := by
    intro hm
    rcases List.mem_append.mp hm with hm | hm
    · exact h hm
    · exact absurd (List.mem_singleton.mp hm) (by decide)
  rw [ofOctets_of_not_mem hconcat, ofOctets_of_not_mem h, ofLine_concat Width.carriageReturn_not_mem_marker]

/-- Line by line: each newline is still one, and what is new counts for nothing. -/
theorem ofOctets_withReturns (d : Octets) : ofOctets (withReturns d) = ofOctets d := by
  obtain ⟨ls, h⟩ := exists_splits d
  induction h with
  | nothing => rfl
  | opened _ hl => rw [withReturns_eq, withAhead_of_not_mem hl]
  | @closed l d _ hl _ ih =>
    have hrewritten : withReturns (l ++ newline :: d) = (l ++ [carriageReturn]) ++ newline :: withReturns d := by
      rw [withReturns_eq, withAhead_append, withAhead_of_not_mem hl, withAhead_cons_self, List.append_assoc]
      rfl
    rw [hrewritten, ofOctets_append_newline_append, ofOctets_append_newline_append,
      ofOctets_concat_carriageReturn hl, ih]

/-- **Counting goes by lines.** What is counted of a log, however a reader gives it out, is the sum of what is counted
ahead of a newline and behind it, wherever that newline is. Its lines may come in any order, with a newline between
any two or behind each; one newline more at the end makes no difference, and no carriage return ahead of a newline
does. -/
theorem ofOctets_by_lines :
    (∀ d s, Delivers d s → ofStream s = .ok (ofOctets d)) ∧
    (∀ x y, ofOctets (x ++ newline :: y) = (ofOctets x).add (ofOctets y)) ∧
    (∀ d ls ps, Splits d ls → ps.Perm (ls.map bare) →
      ofOctets ([newline].intercalate ps) = ofOctets d ∧
      ofOctets (ps.flatMap (· ++ [newline])) = ofOctets d) ∧
    (∀ d, ofOctets (d ++ [newline]) = ofOctets d) ∧
    ∀ d, ofOctets (withReturns d) = ofOctets d := by
  refine ⟨?_, ofOctets_append_newline_append, ?_, ofOctets_concat_newline, ofOctets_withReturns⟩
  · intro d s h
    rw [ofStream_eq, h.whole_eq]
    rfl
  · intro d ls ps h hperm
    have hfree : ∀ p ∈ ps, newline ∉ p := fun p hp => newline_not_mem_bare h p (hperm.mem_iff.mp hp)
    have hsame : ofLines ps = ofOctets d := by
      rw [ofLines_perm hperm, ofLines_map_bare h, ofOctets_of_splits h]
    rw [ofOctets_intercalate hfree, ofOctets_flatMap_closed hfree]
    exact ⟨hsame, hsame⟩

/-- A log whose last line is open, in parts of two octets with a pause ahead of each, and with its two lines the
other way around. -/
theorem ofOctets_by_lines_reordered :
    let d := octets "sb\nsw"
    (Delivers d (Stream.inParts 2 true d) ∧ Splits d [octets "sb\n", octets "sw"] ∧
      [octets "sw", octets "sb"].Perm ([octets "sb\n", octets "sw"].map bare)) ∧
    ofStream (Stream.inParts 2 true d) = .ok ⟨1, 0, 1⟩ ∧ ofOctets (octets "sw\nsb") = ⟨1, 0, 1⟩ ∧
      ofOctets (octets "sw\nsb\n") = ⟨1, 0, 1⟩ := by
  intro d
  have hgiven := delivers_inParts 2 true d
  have hsplits : Splits d [octets "sb\n", octets "sw"] := splits_iff.mpr (by decide +kernel)
  have hperm : [octets "sw", octets "sb"].Perm ([octets "sb\n", octets "sw"].map bare) := by decide +kernel
  have hcounts : ofOctets d = ⟨1, 0, 1⟩ := by decide +kernel
  obtain ⟨hstream, -, hreordered, -⟩ := ofOctets_by_lines
  obtain ⟨hbetween, hbehind⟩ := hreordered d _ _ hsplits hperm
  have hjoined : [newline].intercalate [octets "sw", octets "sb"] = octets "sw\nsb" := by decide +kernel
  have hclosed : [octets "sw", octets "sb"].flatMap (· ++ [newline]) = octets "sw\nsb\n" := by decide +kernel
  rw [hjoined, hcounts] at hbetween
  rw [hclosed, hcounts] at hbehind
  refine ⟨⟨hgiven, hsplits, hperm⟩, ?_, hbetween, hbehind⟩
  rw [← hcounts]
  exact hstream d _ hgiven

end Counts

end CoreBench.Trace
