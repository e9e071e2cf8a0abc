/-!
Uniform integers from random words. A word of 32 bits is multiplied by the number of values; the upper half of
the product is the position of a value, and the word is refused if the lower half is in the last, incomplete
part of its range, so that every value has the same number of words.

Stated here:
  * `draw_mem`: what is drawn is within the range.
-/

namespace CoreBench.Random

/-- A source of random words: from a state to a word and the state behind it. -/
abbrev Source (σ : Type) := σ → UInt32 × σ

/-- The number of words of 32 bits. -/
def wordCount : Nat := 0x100000000

/-- The largest lower half that is accepted for `n` values. -/
def zone (n : Nat) : Nat :=
  wordCount - 1 - (wordCount - n) % n

/-- The value that a word stands for, of those from `-range` up to `range - 1`, unless it is refused. -/
def accept? (range : Nat) (w : UInt32) : Option Int :=
  let product := w.toNat * (2 * range)
  if product % wordCount ≤ zone (2 * range) then some ((product / wordCount : Nat) - (range : Int))
  else none

theorem accept?_mem {range : Nat} {w : UInt32} {v : Int} (h : accept? range w = some v) :
    -(range : Int) ≤ v ∧ (range = 0 ∨ v < range) := by
  simp only [accept?] at h
  split at h
  · simp only [Option.some.injEq] at h
    rw [← h]
    constructor
    · have := Int.natCast_nonneg (w.toNat * (2 * range) / wordCount)
      omega
    · by_cases hr : range = 0
      · exact Or.inl hr
      · refine Or.inr ?_
        have hw : w.toNat < wordCount := w.toNat_lt
        have hp : w.toNat * (2 * range) < wordCount * (2 * range) :=
          Nat.mul_lt_mul_of_pos_right hw (by omega)
        have := Nat.div_lt_of_lt_mul hp
        generalize w.toNat * (2 * range) / wordCount = q at this
        omega
  · simp at h

/-- The most words that are tried for one value. -/
def tries : Nat := wordCount

/-- A value from `-range` up to `range - 1` by the first of at most `n` words that is accepted, and the state
behind it. -/
def drawWithin {σ : Type} (next : Source σ) (range : Nat) : Nat → σ → Option Int × σ
  | 0, s => (none, s)
  | n + 1, s =>
    match accept? range (next s).1 with
    | some v => (some v, (next s).2)
    | none => drawWithin next range n (next s).2

/-- A value from `-range` up to `range - 1`, and the state behind it. -/
def draw {σ : Type} (next : Source σ) (range : Nat) (s : σ) : Option Int × σ :=
  drawWithin next range tries s

theorem drawWithin_mem {σ : Type} {next : Source σ} {range n : Nat} {s t : σ} {v : Int}
    (h : drawWithin next range n s = (some v, t)) : -(range : Int) ≤ v ∧ (range = 0 ∨ v < range) := by
  induction n generalizing s with
  | zero => simp [drawWithin] at h
  | succ n ih =>
    simp only [drawWithin] at h
    split at h
    · next w hw =>
      simp only [Prod.mk.injEq, Option.some.injEq] at h
      exact accept?_mem (h.1 ▸ hw)
    · exact ih h

theorem draw_mem {σ : Type} {next : Source σ} {range : Nat} {s t : σ} {v : Int}
    (h : draw next range s = (some v, t)) : -(range : Int) ≤ v ∧ (range = 0 ∨ v < range) :=
  drawWithin_mem h

end CoreBench.Random
