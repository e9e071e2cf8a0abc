import CoreBench.Proofs.Files.Growth
import CoreBench.Proofs.Stimuli.Run

/-!
The effect of a run. The log aside, a run of the stimuli generator comes to a result and to a change of one place at
most, and neither depends on more of the files than where the output leads to. Files are all that runs add, so behind
other runs a run writes what and where it would have written ahead of them.

What is proved:
  * `run_effect`: the result of a run, and the change that it makes;
  * `Config.Ready.does`: with a seed that gives a case, parameters are refused, or the output cannot be created, or the
    header is written;
  * `change?_grown`, `result_grown`: what files that have been added mean for a run.
-/

namespace CoreBench.Stimuli

open CoreBench.Files CoreBench.Random CoreBench.Text CoreBench.Files.Tree Step

/-- What a configuration and the files have to be for its runs to be accounted for: a seed, whose keystream gives
words enough to draw a case from, and a regular file, or none yet, where the output leads to. -/
structure Config.Ready (c : Config) (t : Tree) : Prop where
  seeded : ∃ seed, c.seed = some seed ∧ (c.params.validate = .ok () →
    (drawPairs Keystream.next c.params.range #[] #[] (c.params.size * c.params.size)
      (.ofSeed (UInt64.ofNat seed))).1.isSome = true)
  regular : ∀ p, t.locateNew c.output = .ok p → Regular (t.node? p)

/-- A run writes to `q`: the parameters are valid, and the output can be created there. -/
def Config.Writes (c : Config) (t : Tree) (q : Place) : Prop :=
  c.params.validate = .ok () ∧ ∃ u, t.create c.output = .ok (u, q)

/-- The configuration asks for the header of a case: the one that its seed gives for its parameters. -/
def Config.AsksFor (c : Config) (case : Case) : Prop :=
  ∃ seed, c.seed = some seed ∧
    (Case.generate Keystream.next c.params (.ofSeed (UInt64.ofNat seed))).1 = .ok case

/-- The file at `q` holds the header that a configuration asks for, and nothing else. -/
def Config.Holds (c : Config) (t : Tree) (q : Place) : Prop :=
  ∃ case, c.AsksFor case ∧ t.node? q = some (.file (octets (case.header c.sect)))

/-- What a run does, by the files ahead of it and behind it, and by what it comes to. -/
inductive Config.Does (c : Config) (before after : Tree) (r : Except StimuliError Case) : Prop where
  /-- The parameters are refused, and the files stay as they are. -/
  | refuses (e : StimuliError) (invalid : c.params.validate = .error e) (result : r = .error e)
    (files : after = before)
  /-- The output cannot be created, and the files stay as they are. -/
  | fails (f : Fault) (valid : c.params.validate = .ok ())
    (create : before.create c.output = .error ⟨.creating, c.output, f⟩)
    (result : r = .error (.file ⟨.creating, c.output, f⟩)) (files : after = before)
  /-- The header is written, whatever a check of it comes to. -/
  | writes (q : Place) (case : Case) (there : c.Writes before q) (asked : c.AsksFor case)
    (written : after.node? q = some (.file (octets (case.header c.sect))))
    (others : ∀ p, p ≠ q → after.node? p = before.node? p)
    (result : r = .ok case ∨ c.verify = true ∧ ∃ line, r = .error (.parse (.badBuffer line)))

/-- What the result of a run is behind others that have only added files: the same, or a name on the way to
the output was missing and is that of a file now. -/
def Config.Later (c : Config) (r r' : Except StimuliError Case) : Prop :=
  r' = r ∨ r = .error (.file ⟨.creating, c.output, .notFound⟩) ∧
    r' = .error (.file ⟨.creating, c.output, .notADirectory⟩)

/-! ## The effect of one run -/

namespace Config

variable {c : Config} {entropy : Key} {t u : Tree} {q : Place}

/-- The case that a run draws, or why there is none. -/
def drawn (c : Config) (entropy : Key) : Except StimuliError Case :=
  (Case.generate Keystream.next c.params (c.keystream entropy)).1

/-- What a run comes to once its header is written. -/
def answer (c : Config) (case : Case) : Except StimuliError Case :=
  if c.verify then (settled c.output case (Header.read (case.header c.sect).toList)).map fun _ => case
  else .ok case

/-- What a run comes to. -/
def result (c : Config) (entropy : Key) (t : Tree) : Except StimuliError Case :=
  match c.drawn entropy, t.locateNew c.output with
  | .error e, _ => .error e
  | .ok _, .error f => .error (.file ⟨.creating, c.output, f⟩)
  | .ok case, .ok _ => c.answer case

/-- The place of the file that a run writes, and what it leaves there. -/
def change? (c : Config) (entropy : Key) (t : Tree) : Option (Place × Octets) :=
  match c.drawn entropy, t.locateNew c.output with
  | .ok case, .ok p => some (p, octets (case.header c.sect))
  | _, _ => none

end Config

/-- A tree with a change made to it, if there is one. -/
def changed (t : Tree) (change : Option (Place × Octets)) : Tree :=
  match change with
  | none => t
  | some (p, b) => t.put p (.file b)

section Effect

variable {c : Config} {entropy : Key} {s : Session} {t u : Tree} {q : Place}

theorem drawn_of_invalid {e : StimuliError} (h : c.params.validate = .error e) (entropy : Key) :
    c.drawn entropy = .error e := by
  rw [Config.drawn, Case.generate_invalid h]

/-- The log aside, a run comes to its result and leaves its change. -/
theorem run_effect (hregular : ∀ p, s.files.locateNew c.output = .ok p → Regular (s.files.node? p))
    (entropy : Key) :
    Ends (run entropy c) s (c.result entropy s.files)
      (changed s.files (c.change? entropy s.files)) := by
  cases hvalid : c.params.validate with
  | error e =>
    rw [Config.result, Config.change?, drawn_of_invalid hvalid]
    exact run_refused hvalid
  | ok valid =>
    have hparams : c.validParams = .ok c.params := by rw [Config.validParams, hvalid]
    cases hdraw : c.drawn entropy with
    | error e =>
      rw [Config.result, Config.change?, hdraw, run, hparams]
      refine Ends.bind (Ends.ofExcept _) fun _ => ?_
      refine Ends.bind (Ends.note _) fun _ => ?_
      exact Ends.bind_error (drawCase_refused hdraw) _
    | ok case =>
      cases hlocate : s.files.locateNew c.output with
      | error f =>
        have hcreate := create_eq_error.mpr ⟨f, hlocate, rfl⟩
        rw [Config.result, Config.change?, hdraw, hlocate, run, hparams]
        refine Ends.bind (Ends.ofExcept _) fun _ => ?_
        refine Ends.bind (Ends.note _) fun _ => ?_
        refine Ends.bind (drawCase_ends hdraw) fun events => ?_
        exact Ends.bind_error (writeHeaderFile_refused (s := ⟨s.files, events⟩) hcreate) _
      | ok p =>
        have hp := hregular p hlocate
        have hends : Ends (run entropy c) s _ _ :=
          run_ends hvalid hdraw (create_of_regular hlocate hp) (node?_put hp.ne_root)
        rw [put_put] at hends
        rw [Config.result, Config.change?, hdraw, hlocate]
        exact hends

/-- Earlier runs do not change what a run writes, nor where. -/
theorem change?_grown (h : Grown t u) (c : Config) (entropy : Key) :
    c.change? entropy u = c.change? entropy t := by
  rw [Config.change?, Config.change?]
  rcases locateNew_grown h c.output with heq | ⟨hwas, hnow⟩
  · rw [heq]
  · rw [hwas, hnow]
    cases c.drawn entropy <;> rfl

theorem result_grown (h : Grown t u) (c : Config) (entropy : Key) :
    c.Later (c.result entropy t) (c.result entropy u) := by
  rw [Config.result, Config.result]
  rcases locateNew_grown h c.output with heq | ⟨hwas, hnow⟩
  · rw [heq]
    exact Or.inl rfl
  · rw [hwas, hnow]
    cases c.drawn entropy with
    | error e => exact Or.inl rfl
    | ok case => exact Or.inr ⟨rfl, rfl⟩

theorem change?_eq_some {b : Octets} (h : c.change? entropy t = some (q, b)) :
    t.locateNew c.output = .ok q ∧ ∃ case, c.drawn entropy = .ok case ∧ b = octets (case.header c.sect) := by
  rw [Config.change?] at h
  split at h
  · next case p hdraw hlocate =>
    obtain ⟨rfl, rfl⟩ := Prod.mk.inj (Option.some.inj h)
    exact ⟨hlocate, case, hdraw, rfl⟩
  · cases h

theorem Config.Ready.grown_changed (h : c.Ready t) (entropy : Key) :
    Grown t (changed t (c.change? entropy t)) := by
  cases hc : c.change? entropy t with
  | none => exact Grown.refl t
  | some change => exact grown_put (h.regular _ (change?_eq_some hc).1) change.2

theorem Config.Ready.of_grown (h : c.Ready t) (hgrown : Grown t u) : c.Ready u := by
  refine ⟨h.seeded, fun p hp => ?_⟩
  rw [hgrown.regular_iff]
  exact h.regular p ((locateNew_grown_eq_ok hgrown).mp hp)

theorem changed_of_ne {change : Option (Place × Octets)} (h : ∀ b, change ≠ some (q, b)) :
    (changed t change).node? q = t.node? q := by
  cases change with
  | none => rfl
  | some pb =>
    refine node?_put_of_ne ?_
    rintro rfl
    exact h pb.2 rfl

/-- A run of a configuration that is ready draws the case that is asked for, whatever the entropy, exactly if
the parameters are valid. -/
theorem Config.Ready.drawn_cases (h : c.Ready t) (entropy : Key) :
    (∃ e, c.params.validate = .error e ∧ c.drawn entropy = .error e) ∨
      c.params.validate = .ok () ∧ ∃ case : Case, c.AsksFor case ∧ case.Meets c.params ∧
        c.drawn entropy = .ok case := by
  obtain ⟨seed, hseed, hdraws⟩ := h.seeded
  have hstream : c.keystream entropy = .ofSeed (UInt64.ofNat seed) := by
    rw [Config.keystream, hseed]
  rcases generate_cases hdraws with ⟨e, hinvalid, -⟩ | ⟨hvalid, case, hcase, hmeets⟩
  · exact Or.inl ⟨e, hinvalid, drawn_of_invalid hinvalid entropy⟩
  · refine Or.inr ⟨hvalid, case, ⟨seed, hseed, hcase⟩, hmeets, ?_⟩
    rw [Config.drawn, hstream, hcase]

theorem Config.Ready.writes_iff (h : c.Ready t) (entropy : Key) (q : Place) :
    c.Writes t q ↔ ∃ b, c.change? entropy t = some (q, b) := by
  rw [Config.Writes, create_eq_ok, Config.change?]
  rcases h.drawn_cases entropy with ⟨e, hinvalid, hdrawn⟩ | ⟨hvalid, case, -, -, hdrawn⟩
  · rw [hinvalid, hdrawn]
    simp
  · rw [hvalid, hdrawn]
    cases t.locateNew c.output with
    | error f => simp
    | ok p => simp

/-- Once its header is written, a run comes to its case, or to a line at fault if it checks the header. -/
theorem answer_cases {case : Case} (hvalid : c.params.validate = .ok ())
    (hdraw : c.drawn entropy = .ok case) (hmeets : case.Meets c.params) :
    c.answer case = .ok case ∨
      c.verify = true ∧ ∃ line, c.answer case = .error (.parse (.badBuffer line)) := by
  obtain ⟨hpos, hmax, -, -⟩ := Params.validate_eq_ok.mp hvalid
  obtain ⟨ha, hb, he⟩ := hmeets.sizes
  rw [← hmeets.params_eq] at hpos hmax ha hb he
  rw [Config.answer]
  cases hverify : c.verify with
  | false => exact Or.inl rfl
  | true =>
    rcases (settled_header hpos hmax ha hb he (multiply_of_generate hdraw) c.output c.sect).1 with
      hok | ⟨line, hline⟩
    · rw [hok]
      exact Or.inl rfl
    · rw [hline]
      exact Or.inr ⟨rfl, line, rfl⟩

theorem Config.Ready.does (h : c.Ready t) (entropy : Key) :
    c.Does t (changed t (c.change? entropy t)) (c.result entropy t) := by
  rcases h.drawn_cases entropy with ⟨e, hinvalid, hdrawn⟩ | ⟨hvalid, case, hasked, hmeets, hdrawn⟩
  · refine Config.Does.refuses e hinvalid ?_ ?_
    · rw [Config.result, hdrawn]
    · rw [Config.change?, hdrawn]
      rfl
  · cases hlocate : t.locateNew c.output with
    | error f =>
      refine Config.Does.fails f hvalid (create_eq_error.mpr ⟨f, hlocate, rfl⟩) ?_ ?_
      · rw [Config.result, hdrawn, hlocate]
      · rw [Config.change?, hdrawn, hlocate]
        rfl
    | ok q =>
      have hroot := (h.regular q hlocate).ne_root
      rw [Config.result, Config.change?, hdrawn, hlocate]
      exact Config.Does.writes q case ⟨hvalid, create_eq_ok.mpr hlocate⟩ hasked (node?_put hroot)
        (fun p hp => node?_put_of_ne hp) (answer_cases hvalid hdrawn hmeets)

end Effect

end CoreBench.Stimuli
