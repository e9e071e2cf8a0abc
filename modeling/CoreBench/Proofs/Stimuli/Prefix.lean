import CoreBench.Proofs.Stimuli.Generation

/-!
Cases of several sizes from one state of a source. The two operands are drawn together, cell by cell and row by row, so
a draw that goes on has the elements that a shorter one stops at, however many words each element has taken. A smaller
case is therefore the start of a larger one.

What is proved:
  * `drawPairs_add`: drawing goes on where it was left;
  * `drawPairs_prefix`: what has been drawn stays in front;
  * `drawPairs_of_le`: a draw that is cut short has the start of the elements;
  * `generate_starts`: the operands of a smaller case are the start of those of a larger one.
-/

namespace CoreBench.Stimuli

open CoreBench.Random

variable {σ : Type} {next : Source σ} {range : Nat}

/-! ## Draws -/

/-- Drawing goes on where it was left. -/
theorem drawPairs_add (a b : Array Int32) (i j : Nat) (s : σ) :
    drawPairs next range a b (i + j) s =
      match drawPairs next range a b i s with
      | (none, t) => (none, t)
      | (some (a', b'), t) => drawPairs next range a' b' j t := by
  induction i generalizing a b s with
  | zero => rw [Nat.zero_add, drawPairs]
  | succ i ih =>
    rw [Nat.succ_add, drawPairs, drawPairs]
    rcases draw next range s with ⟨_ | x, s⟩
    · rfl
    · simp only
      rcases draw next range s with ⟨_ | y, s⟩
      · rfl
      · exact ih _ _ s

/-- What has been drawn stays in front. -/
theorem drawPairs_prefix {n : Nat} {a b a' b' : Array Int32} {s t : σ}
    (h : drawPairs next range a b n s = (some (a', b'), t)) : a.toList <+: a'.toList ∧ b.toList <+: b'.toList := by
  induction n generalizing a b s with
  | zero =>
    rw [drawPairs] at h
    cases h
    exact ⟨List.prefix_rfl, List.prefix_rfl⟩
  | succ n ih =>
    have hpush : ∀ (c : Array Int32) (z : Int32), c.toList <+: (c.push z).toList := by
      intro c z
      rw [Array.toList_push]
      exact List.prefix_append _ _
    rw [drawPairs] at h
    split at h
    · cases h
    · split at h
      · cases h
      · obtain ⟨ha, hb⟩ := ih h
        exact ⟨(hpush a _).trans ha, (hpush b _).trans hb⟩

/-- A draw that is cut short has the start of the elements. -/
theorem drawPairs_of_le {i n : Nat} (hle : i ≤ n) {a b a' b' : Array Int32} {s t : σ}
    (h : drawPairs next range a b n s = (some (a', b'), t)) :
    ∃ u v w, drawPairs next range a b i s = (some (u, v), w) ∧ u.toList <+: a'.toList ∧ v.toList <+: b'.toList := by
  have hwhole : drawPairs next range a b (i + (n - i)) s = (some (a', b'), t) := by
    rw [Nat.add_sub_cancel' hle]
    exact h
  rw [drawPairs_add] at hwhole
  split at hwhole
  · cases hwhole
  · next u v w hcut =>
    obtain ⟨ha, hb⟩ := drawPairs_prefix hwhole
    exact ⟨u, v, w, hcut, ha, hb⟩

/-! ## Cases -/

/-- A smaller size is as valid as a larger one, unless it is none. -/
theorem validate_of_le {p q : Params} (hq : q.validate = .ok ()) (hrange : p.range = q.range) (hpos : 1 ≤ p.size)
    (hle : p.size ≤ q.size) : p.validate = .ok () := by
  obtain ⟨-, hmax, hpositive, hworst⟩ := Params.validate_eq_ok.mp hq
  refine Params.validate_eq_ok.mpr ⟨hpos, Nat.le_trans hle hmax, hrange ▸ hpositive, ?_⟩
  calc p.worstCase = p.size * p.range * p.range := rfl
    _ = p.size * q.range * q.range := by rw [hrange]
    _ ≤ q.size * q.range * q.range := Nat.mul_le_mul_right _ (Nat.mul_le_mul_right _ hle)
    _ ≤ maxInt32 := hworst

/-- **Smaller cases are the start of larger ones.** From the state from which a case is generated, one of any smaller
size and the same range is generated as well, and of each operand it holds the first cells. -/
theorem generate_starts {σ : Type} (next : Source σ) (s : σ) {p q : Params} (hrange : p.range = q.range)
    (hpos : 1 ≤ p.size) (hle : p.size ≤ q.size) {d : Case} (hd : (Case.generate next q s).1 = .ok d) :
    (∃ c, (Case.generate next p s).1 = .ok c) ∧
    ∀ c, (Case.generate next p s).1 = .ok c →
      c.a.cells.toList = d.a.cells.toList.take (p.size * p.size) ∧
      c.b.cells.toList = d.b.cells.toList.take (p.size * p.size) := by
  obtain ⟨hvalid, ⟨t, hlarge⟩, -⟩ := of_generate hd
  obtain ⟨a, b, w, hsmall, ha, hb⟩ := drawPairs_of_le (Nat.mul_le_mul hle hle) hlarge
  rw [← hrange] at hsmall
  have hdraws : p.validate = .ok () → (drawPairs next p.range #[] #[] (p.size * p.size) s).1.isSome = true := by
    intro _
    rw [hsmall]
    rfl
  rcases generate_cases hdraws with ⟨e, he, -⟩ | ⟨-, c, hc, hmeets⟩
  · rw [validate_of_le hvalid hrange hpos hle] at he
    cases he
  · refine ⟨⟨c, hc⟩, fun c' hc' => ?_⟩
    obtain rfl := Except.ok.inj (hc.symm.trans hc')
    obtain ⟨-, ⟨w', hcells⟩, -⟩ := of_generate hc
    rw [hsmall] at hcells
    cases hcells
    have hfirst : ∀ {m m' : Matrix}, m.cells.size = p.size * p.size → m.cells.toList <+: m'.cells.toList →
        m.cells.toList = m'.cells.toList.take (p.size * p.size) := by
      intro m m' hcount hprefix
      rw [← hcount]
      exact List.prefix_iff_eq_take.mp hprefix
    exact ⟨hfirst hmeets.counts.1 ha, hfirst hmeets.counts.2.1 hb⟩

/-- From a source of which every third word is refused, a case of one cell and one of four. -/
theorem generate_starts_refused :
    let next : Source Nat := fun n => (if n % 3 = 1 then 1431655765 else UInt32.ofNat (n * 1000000007), n + 1)
    let p : Params := ⟨1, 3⟩
    let q : Params := ⟨2, 3⟩
    p.range = q.range ∧ 1 ≤ p.size ∧ p.size ≤ q.size ∧
    ∃ c d, (Case.generate next p 1).1 = .ok c ∧ (Case.generate next q 1).1 = .ok d ∧
      d.a.cells = #[-1, -3, 2, 0] ∧ d.b.cells = #[1, -1, -3, 1] ∧
      c.a.cells.toList = d.a.cells.toList.take (1 * 1) ∧ c.b.cells.toList = d.b.cells.toList.take (1 * 1) := by
  intro next p q
  let d : Case := ⟨q, ⟨2, #[-1, -3, 2, 0], rfl⟩, ⟨2, #[1, -1, -3, 1], rfl⟩, ⟨2, #[8, -2, 2, -2], rfl⟩⟩
  have hd : (Case.generate next q 1).1 = .ok d := by decide
  obtain ⟨⟨c, hc⟩, hstarts⟩ := generate_starts next 1 (p := p) (q := q) (d := d) rfl (by decide) (by decide) hd
  obtain ⟨ha, hb⟩ := hstarts c hc
  exact ⟨rfl, by decide, by decide, c, d, hc, hd, rfl, rfl, ha, hb⟩

end CoreBench.Stimuli
