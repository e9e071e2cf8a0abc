import CoreBench.Proofs.Files.Stream
import CoreBench.Proofs.Text.Cut
import CoreBench.Trace.Counts

/-!
What counts tell. A line is counted for at most one width, by what it has of the mnemonics; and the counts of a
log are a matter of its octets alone, not of how a reader gives them out.

What is proved:
  * `ofLine?_eq_some_iff`: the width that a line stands for, by the mnemonics that it has;
  * `get_ofLines`, `total_ofLines`: counts are numbers of lines;
  * `ofStream_eq`: counting a stream is counting what it delivers as a whole, and fails if that does;
  * `ofStream_tells`: the counts of a log tell of its lines what the mnemonics in them say;
  * `ofStream_of_reader`: they depend on neither parts nor pauses, and a reader that fails leaves none.
-/

namespace CoreBench.Trace

open CoreBench.Files CoreBench.Text

/-! ## Lines -/

/-- Whether a line has a text as a part without gaps. -/
def Has (m : String) (line : Octets) : Prop :=
  octets m <:+: line

instance (m : String) (line : Octets) : Decidable (Has m line) :=
  decidable_of_iff (occursIn (octets m) line = true) occursIn_iff

namespace Width

theorem marks_iff {line : Octets} {w : Width} : marks line w = true ↔ Has w.mnemonic line := by
  rw [Has, octets_mnemonic]
  exact occursIn_iff

theorem ofLine?_eq_some_iff {line : Octets} {w : Width} :
    ofLine? line = some w ↔
      Has w.mnemonic line ∧ ∀ v ∈ priority.takeWhile (· ≠ w), ¬ Has v.mnemonic line := by
  simp only [ofLine?_eq_some, ← marks_iff, Bool.not_eq_true]

theorem ofLine?_byte {line : Octets} : ofLine? line = some .byte ↔ Has "sb" line := by
  simp [ofLine?_eq_some_iff, priority, mnemonic]

theorem ofLine?_half {line : Octets} :
    ofLine? line = some .half ↔ Has "sh" line ∧ ¬ Has "sb" line := by
  simp [ofLine?_eq_some_iff, priority, mnemonic]

theorem ofLine?_word {line : Octets} :
    ofLine? line = some .word ↔ Has "sw" line ∧ ¬ Has "sb" line ∧ ¬ Has "sh" line := by
  simp [ofLine?_eq_some_iff, priority, mnemonic]

theorem isSome_ofLine? {line : Octets} :
    (ofLine? line).isSome = true ↔ Has "sb" line ∨ Has "sh" line ∨ Has "sw" line := by
  rw [ofLine?, List.find?_isSome]
  simp [priority, marks_iff, mnemonic]

end Width

/-! ## Counts of lines -/

namespace Counts

theorem get_add (a b : Counts) (w : Width) : (a.add b).get w = a.get w + b.get w := by
  cases w <;> rfl

theorem total_add (a b : Counts) : (a.add b).total = a.total + b.total := by
  simp only [total, add]
  omega

theorem ofLines_cons (l : Octets) (ls : List Octets) :
    ofLines (l :: ls) = (ofLine l).add (ofLines ls) := by
  rw [ofLines, List.foldl_cons, foldl_addLine, addLine_eq_add, zero_add]

theorem get_ofLine (l : Octets) (w : Width) :
    (ofLine l).get w = if Width.ofLine? l = some w then 1 else 0 := by
  unfold ofLine
  cases Width.ofLine? l with
  | none => cases w <;> rfl
  | some v => cases v <;> cases w <;> rfl

theorem total_ofLine (l : Octets) :
    (ofLine l).total = if (Width.ofLine? l).isSome = true then 1 else 0 := by
  unfold ofLine
  cases Width.ofLine? l with
  | none => rfl
  | some v => cases v <;> rfl

theorem get_ofLines (ls : List Octets) (w : Width) :
    (ofLines ls).get w = ls.countP fun l => decide (Width.ofLine? l = some w) := by
  induction ls with
  | nil => cases w <;> rfl
  | cons l ls ih =>
    rw [ofLines_cons, get_add, get_ofLine, ih, List.countP_cons, Nat.add_comm]
    simp only [decide_eq_true_eq]

theorem total_ofLines (ls : List Octets) :
    (ofLines ls).total = ls.countP fun l => (Width.ofLine? l).isSome := by
  induction ls with
  | nil => rfl
  | cons l ls ih => rw [ofLines_cons, total_add, total_ofLine, ih, List.countP_cons, Nat.add_comm]

/-- Counts that tell of lines what the mnemonics in them say: `sb` goes ahead of `sh`, and both go ahead of
`sw`. -/
structure Tells (c : Counts) (ls : List Octets) : Prop where
  sb : c.sb = ls.countP fun l => decide (Has "sb" l)
  sh : c.sh = ls.countP fun l => decide (Has "sh" l ∧ ¬ Has "sb" l)
  sw : c.sw = ls.countP fun l => decide (Has "sw" l ∧ ¬ Has "sb" l ∧ ¬ Has "sh" l)
  total : c.total = ls.countP fun l => decide (Has "sb" l ∨ Has "sh" l ∨ Has "sw" l)

theorem ofLines_tells (ls : List Octets) : (ofLines ls).Tells ls := by
  have hget := get_ofLines ls
  refine ⟨(hget .byte).trans ?_, (hget .half).trans ?_, (hget .word).trans ?_, ?_⟩
  · simp only [Width.ofLine?_byte]
  · simp only [Width.ofLine?_half]
  · simp only [Width.ofLine?_word]
  · rw [total_ofLines]
    apply List.countP_congr
    intro l _
    rw [decide_eq_true_eq, Width.isSome_ofLine?]

/-! ## Counts of logs -/

theorem ofOctets_eq (d : Octets) : ofOctets d = ofLines (closeLast (feed [] d)) := by
  rw [ofOctets, Stream.lines, linesFrom_of_whole (whole_part d)]

/-- Counting needs nothing of a stream but what it delivers as a whole. -/
theorem ofStream_eq (s : Stream) : ofStream s = s.whole.map ofOctets := by
  cases h : s.whole with
  | ok d =>
    rw [ofStream, Stream.lines, linesFrom_of_whole h]
    exact congrArg Except.ok (ofOctets_eq d).symm
  | error f =>
    have hfault := linesFrom_of_failure h []
    rw [ofStream, Stream.lines]
    split
    · next g hg =>
      rw [hg] at hfault
      obtain rfl := Option.some.inj hfault
      rfl
    · next hg =>
      rw [hg] at hfault
      cases hfault

theorem ofStream_part (d : Octets) : ofStream [.part d] = .ok (ofOctets d) := by
  rw [ofStream_eq, whole_part]
  rfl

theorem Tells.total_le {c : Counts} {ls : List Octets} (h : c.Tells ls) : c.total ≤ ls.length := by
  rw [h.total]
  exact List.countP_le_length

/-- **Counts mean lines.** A log at hand is counted; its counts tell of its lines, which are determined, what
the mnemonics in them say, and are no more than there are octets. Behind a newline a log can be counted anew:
nothing is found across the end of a line. -/
theorem ofStream_tells :
    (∀ d, ∃ ls c, (∀ ls', Splits d ls' ↔ ls' = ls) ∧ ofStream [.part d] = .ok c ∧ c.Tells ls ∧
      c.total ≤ ls.length ∧ ls.length ≤ d.length) ∧
    ∀ x y, ofOctets (x ++ newline :: y) = (ofOctets (x ++ [newline])).add (ofOctets y) := by
  constructor
  · intro d
    have htells := ofLines_tells (closeLast (feed [] d))
    refine ⟨closeLast (feed [] d), ofOctets d, fun _ => splits_iff, ofStream_part d, ?_, ?_, ?_⟩
    · rwa [ofOctets_eq]
    · rw [ofOctets_eq]
      exact htells.total_le
    · exact (splits_iff.mpr rfl).length_le
  · intro x y
    have hsplits := Splits.append (splits_iff.mpr rfl : Splits (x ++ [newline]) _)
      (splits_iff.mpr rfl : Splits y _)
    rw [ofOctets_eq, ofOctets_eq, ofOctets_eq, ← splits_iff.mp hsplits, ofLines_append]

/-- **Counts are a matter of the octets.** However a reader gives them out, the counts are those of the log
at hand; and one that fails once `k` octets have been given out leaves its error and no counts exactly if
there are `k` octets to give. -/
theorem ofStream_of_reader (d : Octets) :
    ∃ c, ofStream [.part d] = .ok c ∧ (∀ s, Delivers d s → ofStream s = .ok c) ∧
      ∀ f k s, FailsAfter f k d s →
        (ofStream s = .error f ↔ k ≤ d.length) ∧ (d.length < k → ofStream s = .ok c) := by
  refine ⟨ofOctets d, ofStream_part d, fun s h => ?_, fun f k s h => ?_⟩
  · rw [ofStream_eq, h.whole_eq]
    rfl
  · rw [ofStream_eq, h.whole_eq]
    by_cases hk : k ≤ d.length
    · rw [if_pos hk]
      exact ⟨⟨fun _ => hk, fun _ => rfl⟩, fun hlt => absurd hk (Nat.not_le.mpr hlt)⟩
    · rw [if_neg hk]
      refine ⟨⟨fun h => ?_, fun h => absurd h hk⟩, fun _ => rfl⟩
      cases h

/-- A reader that parts a mnemonic and pauses, one that fails behind the last octet of a line that is already
complete, and one that may give out one octet more than there is. -/
theorem ofStream_of_reader_parted :
    let d := octets "sb\nsw\n"
    (Delivers d (Stream.inParts 1 true d) ∧
      FailsAfter .stalled 6 d (Stream.failingAt 6 4 true .stalled d) ∧
      FailsAfter .stalled 7 d (Stream.failingAt 7 4 true .stalled d)) ∧
    ofStream (Stream.inParts 1 true d) = .ok ⟨1, 0, 1⟩ ∧
      ofStream (Stream.failingAt 6 4 true .stalled d) = .error .stalled ∧
      ofStream (Stream.failingAt 7 4 true .stalled d) = .ok ⟨1, 0, 1⟩ := by
  intro d
  have hgiven := delivers_inParts 1 true d
  have hmet := failsAfter_failingAt 6 4 true .stalled d
  have hunmet := failsAfter_failingAt 7 4 true .stalled d
  have hlen : d.length = 6 := by decide +kernel
  obtain ⟨c, hc, hdelivers, hfails⟩ := ofStream_of_reader d
  have hcounts : ofOctets d = ⟨1, 0, 1⟩ := by decide +kernel
  rw [ofStream_part, hcounts] at hc
  obtain rfl := Except.ok.inj hc
  refine ⟨⟨hgiven, hmet, hunmet⟩, hdelivers _ hgiven, ?_, ?_⟩
  · exact (hfails _ _ _ hmet).1.mpr (by omega)
  · exact (hfails _ _ _ hunmet).2 (by omega)

end Counts

end CoreBench.Trace
