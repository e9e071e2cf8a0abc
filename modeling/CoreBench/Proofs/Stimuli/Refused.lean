import CoreBench.Proofs.Stimuli.Generation

/-!
Cases drawn one after the other, some of them with parameters that are refused. The check comes ahead of the first
word that is drawn, so what is refused takes no word, and the cases behind it are the same as if it had not been asked
for. Behind the check nothing fails either, so no case takes words and comes to nothing.

What is proved:
  * `generate_error`: what fails is the check, or the source had no word to use;
  * `generateAll_filter`: without the refused parameters, the same cases and the same state come out;
  * `generateAll_refused`: the same for the whole of what is drawn, with the error at each of the other places.
-/

namespace CoreBench.Stimuli

open CoreBench.Random

/-- Whether parameters pass their check. -/
def Params.isValid (p : Params) : Bool :=
  p.validate.isOk

theorem Params.isValid_eq_false_iff {p : Params} : p.isValid = false ↔ ∃ e, p.validate = .error e := by
  rw [isValid]
  cases p.validate with
  | error e => exact ⟨fun _ => ⟨e, rfl⟩, fun _ => rfl⟩
  | ok u => exact ⟨fun h => Bool.noConfusion h, fun ⟨_, h⟩ => nomatch h⟩

variable {σ : Type} {next : Source σ} {p : Params} {s : σ}

/-- What fails is the check, or else the source had no word to use. -/
theorem generate_error {e : StimuliError} (h : (Case.generate next p s).1 = .error e) :
    p.validate = .error e ∨ p.validate = .ok () ∧ e = .starved := by
  cases hp : p.validate with
  | error e' =>
    rw [Case.generate_invalid hp] at h
    exact Or.inl (congrArg Except.error (Except.error.inj h))
  | ok u =>
    refine Or.inr ⟨rfl, ?_⟩
    cases hdraws : (drawPairs next p.range #[] #[] (p.size * p.size) s).1 with
    | none =>
      rw [Case.generate, hp] at h
      simp only at h
      split at h
      · exact (Except.error.inj h).symm
      · next heq =>
        rw [heq] at hdraws
        cases hdraws
    | some cells =>
      have hsome : (drawPairs next p.range #[] #[] (p.size * p.size) s).1.isSome = true := by rw [hdraws]; rfl
      rcases generate_cases fun _ => hsome with ⟨e', he, -⟩ | ⟨-, c, hc, -⟩
      · cases hp.symm.trans he
      · cases h.symm.trans hc

namespace Case

theorem generateAll_cons (next : Source σ) (p : Params) (ps : List Params) (s : σ) :
    generateAll next (p :: ps) s =
      ((generate next p s).1 :: (generateAll next ps (generate next p s).2).1,
        (generateAll next ps (generate next p s).2).2) := rfl

/-- Refused parameters add their error, and leave the state to those behind them. -/
theorem generateAll_cons_of_error {e : StimuliError} (h : p.validate = .error e) (next : Source σ)
    (ps : List Params) (s : σ) :
    generateAll next (p :: ps) s = (.error e :: (generateAll next ps s).1, (generateAll next ps s).2) := by
  rw [generateAll_cons, generate_invalid h]

theorem length_generateAll (next : Source σ) (ps : List Params) (s : σ) :
    (generateAll next ps s).1.length = ps.length := by
  induction ps generalizing s with
  | nil => rfl
  | cons p ps ih => rw [generateAll_cons, List.length_cons, List.length_cons, ih]

/-- Each result is that of its own parameters, from some state. -/
theorem exists_of_mem_zip {ps : List Params} {r : Params × Except StimuliError Case}
    (h : r ∈ ps.zip (generateAll next ps s).1) : ∃ t, r.2 = (generate next r.1 t).1 := by
  induction ps generalizing s with
  | nil => exact absurd h List.not_mem_nil
  | cons p ps ih =>
    rw [generateAll_cons, List.zip_cons_cons] at h
    rcases List.mem_cons.mp h with rfl | h
    · exact ⟨s, rfl⟩
    · exact ih h

/-- The results at the places with valid parameters, and the state behind all places, are those of the valid
parameters alone. -/
theorem generateAll_filter (next : Source σ) (ps : List Params) (s : σ) :
    (((ps.zip (generateAll next ps s).1).filter fun r => r.1.isValid).map Prod.snd, (generateAll next ps s).2) =
      generateAll next (ps.filter Params.isValid) s := by
  induction ps generalizing s with
  | nil => rfl
  | cons p ps ih =>
    cases hp : p.isValid with
    | true =>
      rw [List.filter_cons, if_pos hp, generateAll_cons, generateAll_cons, ← ih, List.zip_cons_cons, List.filter_cons,
        if_pos hp, List.map_cons]
    | false =>
      -- No word is taken here, so the places behind this one start from the same state on both sides.
      obtain ⟨e, he⟩ := Params.isValid_eq_false_iff.mp hp
      have hnot : ¬ p.isValid = true := Bool.eq_false_iff.mp hp
      rw [List.filter_cons, if_neg hnot, generateAll_cons_of_error he, ← ih, List.zip_cons_cons, List.filter_cons,
        if_neg hnot]

/-- **Refused parameters leave no trace.** Of cases that are drawn one after the other, those with valid parameters
and the state behind all of them are the same as if the others had been left out. Each of the others comes to the error
of its check, and of those with valid parameters none fails but for want of words. -/
theorem generateAll_refused (next : Source σ) (ps : List Params) (s : σ) :
    (generateAll next ps s).1.length = ps.length ∧
    ((ps.zip (generateAll next ps s).1).filter fun r => r.1.isValid).map Prod.snd =
      (generateAll next (ps.filter Params.isValid) s).1 ∧
    (generateAll next ps s).2 = (generateAll next (ps.filter Params.isValid) s).2 ∧
    ∀ r ∈ ps.zip (generateAll next ps s).1, ∀ e,
      (r.1.validate = .error e → r.2 = .error e) ∧
      (r.2 = .error e → r.1.validate = .error e ∨ r.1.validate = .ok () ∧ e = .starved) := by
  have hresults := congrArg Prod.fst (generateAll_filter next ps s)
  have hstate := congrArg Prod.snd (generateAll_filter next ps s)
  refine ⟨length_generateAll next ps s, hresults, hstate, fun r hr e => ?_⟩
  obtain ⟨t, ht⟩ := exists_of_mem_zip hr
  constructor
  · intro he
    rw [ht, generate_invalid he]
  · intro he
    exact generate_error (ht.symm.trans he)

/-- Between two cases of one cell, a size of 0: the second case starts where the first one left the source. -/
example :
    let next : Source Nat := fun n => (UInt32.ofNat (n * 1000000007), n + 1)
    let r := generateAll next [⟨1, 3⟩, ⟨0, 3⟩, ⟨1, 3⟩] 1
    r.2 = 5 ∧ r.1.map (·.toOption.map (·.a.cells)) = [some #[-2], none, some #[1]] := by decide

end Case

end CoreBench.Stimuli
