import CoreBench.Session

/-!
What steps come to. A step is followed from what its parts come to, the log aside: no step reads the log, so what
is said of a part holds whatever has been logged by then.

What is proved:
  * `outcome_bind`: a step behind another starts from the session that this leaves, if it answers;
  * `Ends.bind`, `Ends.bind_error`: the same for answers and files alone;
  * `Ends.create`, `Ends.create_error`, `Ends.append`, `Ends.readText`: what the steps that touch files come to;
  * `Oblivious.bind` and the lemmas beside it: steps that come to the same whatever has been logged ahead of them.
-/

namespace CoreBench.Step

open CoreBench.Files CoreBench.Log CoreBench.Text

variable {ε δ α β : Type} {s : Session}

theorem outcome_bind (x : Step ε α) (f : α → Step ε β) (s : Session) :
    outcome (x >>= f) s =
      match outcome x s with
      | (.ok a, t) => outcome (f a) t
      | (.error e, t) => (.error e, t) := by
  show outcome (EStateM.bind x f) s = _
  unfold outcome EStateM.run EStateM.bind
  cases x s <;> rfl

theorem outcome_ofExcept (r : Except ε α) (s : Session) : outcome (ofExcept r) s = (r, s) := by
  cases r <;> rfl

theorem outcome_mapError (f : δ → ε) (x : Step δ α) (s : Session) :
    outcome (mapError f x) s = ((outcome x s).1.mapError f, (outcome x s).2) := by
  unfold outcome EStateM.run mapError
  cases x s <;> rfl

/-- What a step comes to from a session: an answer or an error, and the files that it leaves. -/
def Ends (x : Step ε α) (s : Session) (r : Except ε α) (files : Tree) : Prop :=
  ∃ events, outcome x s = (r, ⟨files, events⟩)

namespace Ends

variable {r : Except ε β} {t u : Tree}

protected theorem pure (a : α) : Ends (pure a : Step ε α) s (.ok a) s.files :=
  ⟨s.events, rfl⟩

protected theorem ofExcept (r : Except ε α) : Ends (ofExcept r) s r s.files :=
  ⟨s.events, outcome_ofExcept r s⟩

protected theorem get : Ends (get : Step ε Session) s (.ok s) s.files :=
  ⟨s.events, rfl⟩

protected theorem set (v : Session) : Ends (set v : Step ε PUnit) s (.ok ()) v.files :=
  ⟨v.events, rfl⟩

protected theorem note (e : Event) : Ends (note e : Step ε Unit) s (.ok ()) s.files :=
  ⟨s.events ++ [e], rfl⟩

protected theorem bind {x : Step ε α} {f : α → Step ε β} {a : α} (hx : Ends x s (.ok a) t)
    (hf : ∀ events, Ends (f a) ⟨t, events⟩ r u) : Ends (x >>= f) s r u := by
  obtain ⟨events, hx⟩ := hx
  obtain ⟨later, hf⟩ := hf events
  refine ⟨later, ?_⟩
  rw [outcome_bind, hx]
  exact hf

protected theorem bind_error {x : Step ε α} {e : ε} (hx : Ends x s (.error e) t)
    (f : α → Step ε β) : Ends (x >>= f) s (.error e) t := by
  obtain ⟨events, hx⟩ := hx
  refine ⟨events, ?_⟩
  rw [outcome_bind, hx]

protected theorem mapError (f : δ → ε) {x : Step δ α} {r : Except δ α} (hx : Ends x s r t) :
    Ends (mapError f x) s (r.mapError f) t := by
  obtain ⟨events, hx⟩ := hx
  refine ⟨events, ?_⟩
  rw [outcome_mapError, hx]

/-! Steps that touch files. -/

protected theorem create {path : String} {p : Place} (h : s.files.create path = .ok (u, p)) :
    Ends (create path) s (.ok p) u := by
  refine Ends.bind Ends.get fun _ => ?_
  rw [h]
  refine Ends.bind (Ends.ofExcept _) fun _ => ?_
  refine Ends.bind (Ends.set _) fun _ => ?_
  exact Ends.bind (Ends.note _) fun _ => Ends.pure p

protected theorem create_error {path : String} {e : FileError}
    (h : s.files.create path = .error e) : Ends (create path) s (.error e) s.files := by
  refine Ends.bind Ends.get fun _ => ?_
  rw [h]
  exact Ends.bind_error (Ends.ofExcept _) _

protected theorem append {path : String} {p : Place} {b : Octets}
    (h : s.files.append p b = .ok u) : Ends (append path p b) s (.ok ()) u := by
  refine Ends.bind Ends.get fun _ => ?_
  rw [h]
  exact Ends.set _

protected theorem append_error {path : String} {p : Place} {b : Octets} {f : Fault}
    (h : s.files.append p b = .error f) : Ends (append path p b) s (.error ⟨.writing, path, f⟩) s.files := by
  refine Ends.bind Ends.get fun _ => ?_
  rw [h]
  exact Ends.ofExcept (.error _)

protected theorem openRead (path : String) :
    Ends (openRead path) s (s.files.openRead path) s.files := by
  refine Ends.bind Ends.get fun _ => ?_
  cases s.files.openRead path with
  | error e => exact Ends.bind_error (Ends.ofExcept (.error e)) _
  | ok stream =>
    refine Ends.bind (Ends.ofExcept (.ok stream)) fun _ => ?_
    exact Ends.bind (Ends.note _) fun _ => Ends.pure stream

protected theorem readText (path : String) :
    Ends (readText path) s (s.files.readText path) s.files :=
  Ends.bind Ends.get fun _ => Ends.ofExcept _

protected theorem absolute (path : String) :
    Ends (absolute path : Step ε String) s (.ok ((s.files.absolute? path).getD path)) s.files := by
  unfold Step.absolute
  refine Ends.bind Ends.get fun _ => ?_
  cases s.files.absolute? path with
  | some a => exact Ends.pure a
  | none => exact Ends.bind (Ends.note _) fun _ => Ends.pure path

protected theorem eq {x : Step ε α} {r : Except ε α} (h : Ends x s r t) : (outcome x s).1 = r := by
  obtain ⟨events, h⟩ := h
  rw [h]

protected theorem files_eq {x : Step ε α} {r : Except ε α} (h : Ends x s r t) : (outcome x s).2.files = t := by
  obtain ⟨events, h⟩ := h
  rw [h]

end Ends

/-- Every step comes to something. -/
theorem ends_outcome (x : Step ε α) (s : Session) : Ends x s (outcome x s).1 (outcome x s).2.files :=
  ⟨(outcome x s).2.events, rfl⟩

/-! ## Steps that do not look at the log -/

/-- Whether what a step comes to depends on the files alone. -/
def Oblivious (x : Step ε α) : Prop :=
  ∀ files, ∃ r t, ∀ events, Ends x ⟨files, events⟩ r t

namespace Oblivious

protected theorem pure (a : α) : Oblivious (pure a : Step ε α) := fun files =>
  ⟨.ok a, files, fun _ => Ends.pure a⟩

protected theorem ofExcept (r : Except ε α) : Oblivious (ofExcept r) := fun files =>
  ⟨r, files, fun _ => Ends.ofExcept r⟩

protected theorem note (e : Event) : Oblivious (note e : Step ε Unit) := fun files =>
  ⟨.ok (), files, fun _ => Ends.note e⟩

protected theorem bind {x : Step ε α} {f : α → Step ε β} (hx : Oblivious x) (hf : ∀ a, Oblivious (f a)) :
    Oblivious (x >>= f) := by
  intro files
  obtain ⟨r, t, hx⟩ := hx files
  cases r with
  | error e => exact ⟨.error e, t, fun events => Ends.bind_error (hx events) f⟩
  | ok a =>
    obtain ⟨r, u, hf⟩ := hf a t
    exact ⟨r, u, fun events => Ends.bind (hx events) hf⟩

protected theorem mapError (f : δ → ε) {x : Step δ α} (hx : Oblivious x) : Oblivious (mapError f x) := by
  intro files
  obtain ⟨r, t, hx⟩ := hx files
  exact ⟨r.mapError f, t, fun events => Ends.mapError f (hx events)⟩

protected theorem openRead (path : String) : Oblivious (openRead path) := fun files =>
  ⟨files.openRead path, files, fun _ => Ends.openRead path⟩

protected theorem readText (path : String) : Oblivious (readText path) := fun files =>
  ⟨files.readText path, files, fun _ => Ends.readText path⟩

protected theorem create (path : String) : Oblivious (create path) := by
  intro files
  cases h : files.create path with
  | error e => exact ⟨.error e, files, fun _ => Ends.create_error h⟩
  | ok made => exact ⟨.ok made.2, made.1, fun _ => Ends.create h⟩

protected theorem append (path : String) (p : Place) (b : Octets) : Oblivious (append path p b) := by
  intro files
  cases h : files.append p b with
  | error f => exact ⟨_, files, fun _ => Ends.append_error h⟩
  | ok t => exact ⟨.ok (), t, fun _ => Ends.append h⟩

protected theorem absolute (path : String) : Oblivious (absolute path : Step ε String) := fun files =>
  ⟨.ok ((files.absolute? path).getD path), files, fun _ => Ends.absolute path⟩

/-- What the step comes to from an empty log is what it comes to. -/
protected theorem ends {x : Step ε α} (hx : Oblivious x) (s : Session) :
    Ends x s (outcome x ⟨s.files, []⟩).1 (outcome x ⟨s.files, []⟩).2.files := by
  obtain ⟨r, t, hx⟩ := hx s.files
  rw [(hx []).eq, (hx []).files_eq]
  exact hx s.events

end Oblivious

end CoreBench.Step
