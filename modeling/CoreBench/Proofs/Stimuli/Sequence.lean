import CoreBench.Proofs.Stimuli.Effect

/-!
Runs of the stimuli generator one after the other. Each run has its effect on the files that those ahead of it leave,
and since these have only added files, it writes what it would have written at the start.

What is proved:
  * `effects_frame`, `effects_last`: what is left at a place is what the last run that writes there has written;
  * `effects_twice`, `effects_swap`: a run repeated, and two runs that trade places;
  * `runAll_accounted`: all of this for any sequence of runs, and what the text of a header depends on;
  * `runAll_swap_refused`: runs that trade places need not be refused for the same reason.
-/

namespace CoreBench.Stimuli

open CoreBench.Files CoreBench.Random CoreBench.Text CoreBench.Files.Tree Step

/-! ## The effects of runs -/

/-- What runs come to one after the other, and the tree behind them. -/
def effects : List (Key × Config) → Tree → List (Except StimuliError Case) × Tree
  | [], t => ([], t)
  | (entropy, c) :: rs, t =>
    let (results, u) := effects rs (changed t (c.change? entropy t))
    (c.result entropy t :: results, u)

section Sequences

variable {rs : List (Key × Config)} {entropy : Key} {c : Config} {t u : Tree} {q : Place}

theorem effects_append (rs ps : List (Key × Config)) (t : Tree) :
    effects (rs ++ ps) t =
      ((effects rs t).1 ++ (effects ps (effects rs t).2).1, (effects ps (effects rs t).2).2) := by
  induction rs generalizing t with
  | nil => rfl
  | cons r rs ih =>
    obtain ⟨entropy, c⟩ := r
    simp only [List.cons_append, effects, ih]

theorem length_effects (rs : List (Key × Config)) (t : Tree) : (effects rs t).1.length = rs.length := by
  induction rs generalizing t with
  | nil => rfl
  | cons r rs ih =>
    obtain ⟨entropy, c⟩ := r
    simp only [effects, List.length_cons, ih]

/-- The log aside, runs come to their effects. -/
theorem runAll_eq_effects (rs : List (Key × Config)) (s : Session)
    (h : ∀ r ∈ rs, r.2.Ready s.files) :
    (runAll rs s).1 = (effects rs s.files).1 ∧ (runAll rs s).2.files = (effects rs s.files).2 := by
  induction rs generalizing s with
  | nil => exact ⟨rfl, rfl⟩
  | cons r rs ih =>
    obtain ⟨entropy, c⟩ := r
    obtain ⟨hc, hrs⟩ := List.forall_mem_cons.mp h
    obtain ⟨events, hrun⟩ := run_effect hc.regular entropy
    obtain ⟨hresults, hfiles⟩ := ih ⟨changed s.files (c.change? entropy s.files), events⟩
      fun r hr => (hrs r hr).of_grown (hc.grown_changed entropy)
    simp only [runAll, effects, hrun]
    exact ⟨congrArg _ hresults, hfiles⟩

/-- Runs only grow the tree. -/
theorem grown_effects (h : ∀ r ∈ rs, r.2.Ready t) : Grown t (effects rs t).2 := by
  induction rs generalizing t with
  | nil => exact Grown.refl t
  | cons r rs ih =>
    obtain ⟨entropy, c⟩ := r
    obtain ⟨hc, hrs⟩ := List.forall_mem_cons.mp h
    have hgrown := hc.grown_changed entropy
    exact hgrown.trans (ih fun r hr => (hrs r hr).of_grown hgrown)

/-- Runs that do not write at a place leave it as it is. -/
theorem effects_frame (h : ∀ r ∈ rs, r.2.Ready t)
    (hq : ∀ r ∈ rs, ∀ b, r.2.change? r.1 t ≠ some (q, b)) :
    (effects rs t).2.node? q = t.node? q := by
  induction rs generalizing t with
  | nil => rfl
  | cons r rs ih =>
    obtain ⟨entropy, c⟩ := r
    obtain ⟨hc, hrs⟩ := List.forall_mem_cons.mp h
    obtain ⟨hcq, hrsq⟩ := List.forall_mem_cons.mp hq
    have hgrown := hc.grown_changed entropy
    simp only [effects]
    rw [ih (fun r hr => (hrs r hr).of_grown hgrown) fun r hr b => ?_, changed_of_ne hcq]
    rw [change?_grown hgrown]
    exact hrsq r hr b

/-- What the last run that writes at a place has written there is what is left. -/
theorem effects_last {pre post : List (Key × Config)} {b : Octets}
    (h : ∀ r ∈ pre ++ (entropy, c) :: post, r.2.Ready t)
    (hc : c.change? entropy t = some (q, b))
    (hpost : ∀ r ∈ post, ∀ b, r.2.change? r.1 t ≠ some (q, b)) :
    (effects (pre ++ (entropy, c) :: post) t).2.node? q = some (.file b) := by
  obtain ⟨hpreReady, hrest⟩ := List.forall_mem_append.mp h
  obtain ⟨hcReady, hpostReady⟩ := List.forall_mem_cons.mp hrest
  have hgrown := grown_effects hpreReady
  have hnow : c.change? entropy (effects pre t).2 = some (q, b) := by
    rw [change?_grown hgrown, hc]
  have hput := (hcReady.of_grown hgrown).grown_changed entropy
  have hroot : q ≠ [] := (hcReady.regular q (change?_eq_some hc).1).ne_root
  rw [effects_append]
  simp only [effects]
  rw [effects_frame (fun r hr => (hpostReady r hr).of_grown (hgrown.trans hput)) fun r hr b => ?_, hnow]
  · exact node?_put hroot
  · rw [change?_grown (hgrown.trans hput)]
    exact hpost r hr b

/-- Runs come to the same where the same stands at every place. -/
theorem effects_alike (rs : List (Key × Config)) (h : Alike t u) :
    (effects rs u).1 = (effects rs t).1 ∧ Alike (effects rs t).2 (effects rs u).2 := by
  induction rs generalizing t u with
  | nil => exact ⟨rfl, h⟩
  | cons r rs ih =>
    obtain ⟨entropy, c⟩ := r
    have hlocate := locateNew_alike h c.output
    have hresult : c.result entropy u = c.result entropy t := by
      rw [Config.result, Config.result, hlocate]
    have hchange : c.change? entropy u = c.change? entropy t := by
      rw [Config.change?, Config.change?, hlocate]
    have hchanged : Alike (changed t (c.change? entropy t)) (changed u (c.change? entropy u)) := by
      rw [hchange]
      cases c.change? entropy t with
      | none => exact h
      | some change => exact h.put change.1 (.file change.2)
    obtain ⟨hresults, htree⟩ := ih hchanged
    simp only [effects]
    exact ⟨by rw [hresult, hresults], htree⟩

/-- A change that is made twice is made once. -/
theorem changed_changed (t : Tree) (change : Option (Place × Octets)) :
    changed (changed t change) change = changed t change := by
  cases change with
  | none => rfl
  | some change => exact put_put t change.1 _ _

/-- Changes of two places do not depend on which one was made first. -/
theorem changed_comm (t : Tree) {m n : Option (Place × Octets)}
    (h : ∀ q b b', m = some (q, b) → n ≠ some (q, b')) :
    Alike (changed (changed t m) n) (changed (changed t n) m) := by
  cases m with
  | none => exact Alike.refl _
  | some m =>
    cases n with
    | none => exact Alike.refl _
    | some n =>
      refine put_comm t ?_ _ _
      intro heq
      refine h m.1 m.2 n.2 rfl ?_
      rw [heq]

/-- With the seed given, the entropy does not matter. -/
theorem Config.Ready.drawn_eq (h : c.Ready t) (entropy entropy' : Key) :
    c.drawn entropy' = c.drawn entropy := by
  obtain ⟨seed, hseed, -⟩ := h.seeded
  rw [Config.drawn, Config.drawn, Config.keystream, Config.keystream, hseed]

/-- A run repeated comes to the same, and leaves the files as they are. -/
theorem effects_twice (h : c.Ready t) (entropy entropy' : Key) (rs : List (Key × Config)) :
    ∃ r after, (effects ((entropy, c) :: rs) t).1 = r :: after ∧
      (effects ((entropy, c) :: (entropy', c) :: rs) t).1 = r :: r :: after ∧
      (effects ((entropy, c) :: (entropy', c) :: rs) t).2 = (effects ((entropy, c) :: rs) t).2 := by
  have hdrawn := h.drawn_eq entropy entropy'
  have hgrown := h.grown_changed entropy
  have hlocate : (changed t (c.change? entropy t)).locateNew c.output = t.locateNew c.output := by
    cases hchange : c.change? entropy t with
    | none => rfl
    | some change =>
      have hthere := (change?_eq_some hchange).1
      rw [hchange] at hgrown
      rw [hthere, (locateNew_grown_eq_ok hgrown).mpr hthere]
  have hchange : c.change? entropy' (changed t (c.change? entropy t)) = c.change? entropy t := by
    rw [Config.change?, hdrawn, hlocate, Config.change?]
  have hresult : c.result entropy' (changed t (c.change? entropy t)) = c.result entropy t := by
    rw [Config.result, hdrawn, hlocate, Config.result]
  simp only [effects, hchange, hresult, changed_changed]
  exact ⟨_, _, rfl, rfl, trivial⟩

/-- Two runs that write to different places can trade places: the files are the same, and so are the results but
for what refuses an output. -/
theorem effects_swap {e e' : Key} {c d : Config} (hc : c.Ready t) (hd : d.Ready t)
    (h : ∀ q b b', c.change? e t = some (q, b) → d.change? e' t ≠ some (q, b')) (rs : List (Key × Config)) :
    ∃ x y x' y' results, (effects ((e, c) :: (e', d) :: rs) t).1 = x :: y :: results ∧
      (effects ((e', d) :: (e, c) :: rs) t).1 = y' :: x' :: results ∧ c.Later x x' ∧ d.Later y' y ∧
      Alike (effects ((e, c) :: (e', d) :: rs) t).2 (effects ((e', d) :: (e, c) :: rs) t).2 := by
  have hgrownc := hc.grown_changed e
  have hgrownd := hd.grown_changed e'
  simp only [effects, change?_grown hgrownc, change?_grown hgrownd]
  obtain ⟨hresults, htree⟩ := effects_alike rs (changed_comm t h)
  exact ⟨_, _, _, _, _, rfl, by rw [hresults], result_grown hgrownd c e, result_grown hgrownc d e', htree⟩

end Sequences

/-! ## Sequences of runs -/

/-- What there is to say about runs one after the other. -/
structure Accounted (rs : List (Key × Config)) (s : Session) : Prop where
  /-- There is a result for each run. -/
  length_eq : (runAll rs s).1.length = rs.length
  /-- Each run does at its turn what its configuration and the files then ask for. -/
  turn : ∀ pre entropy c post, rs = pre ++ (entropy, c) :: post →
    ∃ r, (runAll rs s).1[pre.length]? = some r ∧ (outcome (run entropy c) (runAll pre s).2).1 = r ∧
      c.Does (runAll pre s).2.files (runAll (pre ++ [(entropy, c)]) s).2.files r
  /-- A run writes at its turn where it would write at the start. -/
  writes_iff : ∀ pre entropy c post q, rs = pre ++ (entropy, c) :: post →
    (c.Writes (runAll pre s).2.files q ↔ c.Writes s.files q)
  /-- A file holds the header of the last run that writes there, and nothing else. -/
  last : ∀ pre entropy c post q, rs = pre ++ (entropy, c) :: post → c.Writes s.files q →
    (∀ r ∈ post, ¬ r.2.Writes s.files q) → c.Holds (runAll rs s).2.files q
  /-- Every place that no run writes to stays as it is. -/
  frame : ∀ q, (∀ r ∈ rs, ¬ r.2.Writes s.files q) → (runAll rs s).2.files.node? q = s.files.node? q
  /-- A run that is repeated comes to the same, and leaves the same files. -/
  twice : ∀ pre entropy entropy' c post, rs = pre ++ (entropy, c) :: post →
    ∃ before r after, (runAll rs s).1 = before ++ r :: after ∧ before.length = pre.length ∧
      (runAll (pre ++ (entropy, c) :: (entropy', c) :: post) s).1 = before ++ r :: r :: after ∧
      (runAll (pre ++ (entropy, c) :: (entropy', c) :: post) s).2.files = (runAll rs s).2.files
  /-- Two runs that write to different files trade places: the files are the same, and so are all results but for
  why an output cannot be created. -/
  swap : ∀ pre e c e' d post, rs = pre ++ (e, c) :: (e', d) :: post →
    (∀ q, c.Writes s.files q → ¬ d.Writes s.files q) →
    (∀ q, (runAll (pre ++ (e', d) :: (e, c) :: post) s).2.files.node? q = (runAll rs s).2.files.node? q) ∧
    ∃ before x y x' y' after, (runAll rs s).1 = before ++ x :: y :: after ∧ before.length = pre.length ∧
      (runAll (pre ++ (e', d) :: (e, c) :: post) s).1 = before ++ y' :: x' :: after ∧
      c.Later x x' ∧ d.Later y' y

section Accounts

variable {rs pre post : List (Key × Config)} {s : Session} {entropy : Key} {c : Config} {q : Place}

theorem Config.writes_grown {t u : Tree} (hgrown : Grown t u) (c : Config) (q : Place) :
    c.Writes u q ↔ c.Writes t q := by
  rw [Config.Writes, Config.Writes, create_eq_ok, create_eq_ok, locateNew_grown_eq_ok hgrown]

/-- What runs ahead of one mean for it: they are accounted for, and it is as ready as it was. -/
theorem ready_turn (h : ∀ r ∈ pre ++ (entropy, c) :: post, r.2.Ready s.files) :
    (runAll pre s).2.files = (effects pre s.files).2 ∧ Grown s.files (runAll pre s).2.files ∧
      c.Ready s.files ∧ c.Ready (runAll pre s).2.files ∧ ∀ r ∈ post, r.2.Ready s.files := by
  obtain ⟨hpre, hrest⟩ := List.forall_mem_append.mp h
  obtain ⟨hc, hpost⟩ := List.forall_mem_cons.mp hrest
  have hfiles := (runAll_eq_effects pre s hpre).2
  have hgrown : Grown s.files (runAll pre s).2.files := by
    rw [hfiles]
    exact grown_effects hpre
  exact ⟨hfiles, hgrown, hc, hc.of_grown hgrown, hpost⟩

theorem runAll_turn (h : ∀ r ∈ pre ++ (entropy, c) :: post, r.2.Ready s.files) :
    ∃ r, (runAll (pre ++ (entropy, c) :: post) s).1[pre.length]? = some r ∧
      (outcome (run entropy c) (runAll pre s).2).1 = r ∧
      c.Does (runAll pre s).2.files (runAll (pre ++ [(entropy, c)]) s).2.files r := by
  obtain ⟨hfiles, -, -, hready, -⟩ := ready_turn h
  refine ⟨c.result entropy (effects pre s.files).2, ?_, ?_, ?_⟩
  · rw [(runAll_eq_effects _ s h).1, effects_append, ← length_effects pre s.files]
    simp only [effects, List.getElem?_append_right (Nat.le_refl _), Nat.sub_self, List.getElem?_cons_zero]
  · rw [(run_effect hready.regular entropy).eq, hfiles]
  · have hone : ∀ r ∈ pre ++ [(entropy, c)], r.2.Ready s.files := by
      intro r hr
      refine h r ?_
      rw [List.append_cons]
      exact List.mem_append_left post hr
    rw [(runAll_eq_effects _ s hone).2, effects_append, ← hfiles]
    exact hready.does entropy

theorem runAll_last (h : ∀ r ∈ pre ++ (entropy, c) :: post, r.2.Ready s.files)
    (hq : c.Writes s.files q) (hpost : ∀ r ∈ post, ¬ r.2.Writes s.files q) :
    c.Holds (runAll (pre ++ (entropy, c) :: post) s).2.files q := by
  obtain ⟨-, -, hc, -, hpostReady⟩ := ready_turn h
  obtain ⟨b, hb⟩ := (hc.writes_iff entropy q).mp hq
  rcases hc.drawn_cases entropy with ⟨e, hinvalid, -⟩ | ⟨-, case, hasked, -, hdrawn⟩
  · rw [hq.1] at hinvalid
    cases hinvalid
  · obtain ⟨-, case', hdrawn', rfl⟩ := change?_eq_some hb
    rw [hdrawn] at hdrawn'
    obtain rfl := Except.ok.inj hdrawn'
    refine ⟨case, hasked, ?_⟩
    rw [(runAll_eq_effects _ s h).2]
    refine effects_last h hb fun r hr b hrb => ?_
    exact hpost r hr (((hpostReady r hr).writes_iff r.1 q).mpr ⟨b, hrb⟩)

theorem runAll_frame (h : ∀ r ∈ rs, r.2.Ready s.files) (hq : ∀ r ∈ rs, ¬ r.2.Writes s.files q) :
    (runAll rs s).2.files.node? q = s.files.node? q := by
  rw [(runAll_eq_effects rs s h).2]
  refine effects_frame h fun r hr b hrb => ?_
  exact hq r hr (((h r hr).writes_iff r.1 q).mpr ⟨b, hrb⟩)

theorem runAll_twice (h : ∀ r ∈ pre ++ (entropy, c) :: post, r.2.Ready s.files) (entropy' : Key) :
    ∃ before r after, (runAll (pre ++ (entropy, c) :: post) s).1 = before ++ r :: after ∧
      before.length = pre.length ∧
      (runAll (pre ++ (entropy, c) :: (entropy', c) :: post) s).1 = before ++ r :: r :: after ∧
      (runAll (pre ++ (entropy, c) :: (entropy', c) :: post) s).2.files =
        (runAll (pre ++ (entropy, c) :: post) s).2.files := by
  obtain ⟨hfiles, -, hc, hready, -⟩ := ready_turn h
  have htwice : ∀ r ∈ pre ++ (entropy, c) :: (entropy', c) :: post, r.2.Ready s.files := by
    obtain ⟨hpre, hrest⟩ := List.forall_mem_append.mp h
    obtain ⟨-, hpost⟩ := List.forall_mem_cons.mp hrest
    refine List.forall_mem_append.mpr ⟨hpre, ?_⟩
    exact List.forall_mem_cons.mpr ⟨hc, List.forall_mem_cons.mpr ⟨hc, hpost⟩⟩
  obtain ⟨hresults, hleft⟩ := runAll_eq_effects _ s h
  obtain ⟨hresults', hleft'⟩ := runAll_eq_effects _ s htwice
  obtain ⟨r, after, hr, hrr, hsame⟩ := effects_twice hready entropy entropy' post
  rw [hfiles] at hr hrr hsame
  refine ⟨(effects pre s.files).1, r, after, ?_, length_effects pre s.files, ?_, ?_⟩
  · rw [hresults, effects_append, hr]
  · rw [hresults', effects_append, hrr]
  · rw [hleft, hleft', effects_append, effects_append, hsame]

theorem runAll_swap {e e' : Key} {c d : Config}
    (h : ∀ r ∈ pre ++ (e, c) :: (e', d) :: post, r.2.Ready s.files)
    (hplaces : ∀ q, c.Writes s.files q → ¬ d.Writes s.files q) :
    (∀ q, (runAll (pre ++ (e', d) :: (e, c) :: post) s).2.files.node? q =
      (runAll (pre ++ (e, c) :: (e', d) :: post) s).2.files.node? q) ∧
    ∃ before x y x' y' after,
      (runAll (pre ++ (e, c) :: (e', d) :: post) s).1 = before ++ x :: y :: after ∧
      before.length = pre.length ∧
      (runAll (pre ++ (e', d) :: (e, c) :: post) s).1 = before ++ y' :: x' :: after ∧
      c.Later x x' ∧ d.Later y' y := by
  obtain ⟨hfiles, hgrown, hc, hcNow, hrest⟩ := ready_turn h
  have hd : d.Ready s.files := hrest _ List.mem_cons_self
  have hdNow := hd.of_grown hgrown
  have hswapped : ∀ r ∈ pre ++ (e', d) :: (e, c) :: post, r.2.Ready s.files := by
    have hperm := (List.Perm.swap (e, c) (e', d) post).append_left pre
    intro r hr
    exact h r (hperm.mem_iff.mp hr)
  have hchanges : ∀ q b b', c.change? e (runAll pre s).2.files = some (q, b) →
      d.change? e' (runAll pre s).2.files ≠ some (q, b') := by
    intro q b b' hcq hdq
    rw [change?_grown hgrown] at hcq hdq
    exact hplaces q ((hc.writes_iff e q).mpr ⟨b, hcq⟩) ((hd.writes_iff e' q).mpr ⟨b', hdq⟩)
  obtain ⟨x, y, x', y', after, hxy, hyx, hx, hy, halike⟩ := effects_swap hcNow hdNow hchanges post
  rw [hfiles] at hxy hyx halike
  obtain ⟨hresults, hleft⟩ := runAll_eq_effects _ s h
  obtain ⟨hresults', hleft'⟩ := runAll_eq_effects _ s hswapped
  refine ⟨fun q => ?_, (effects pre s.files).1, x, y, x', y', after, ?_, length_effects pre s.files, ?_, hx, hy⟩
  · rw [hleft, hleft', effects_append, effects_append]
    exact halike.nodes q
  · rw [hresults, effects_append, hxy]
  · rw [hresults', effects_append, hyx]

/-- What a run leaves depends on no more of its configuration than the parameters, the seed, and the section. -/
theorem Config.Holds.node?_eq {c c' : Config} {t u : Tree} {p q : Place} (h : c.Holds t p)
    (h' : c'.Holds u q) (hparams : c.params = c'.params) (hseed : c.seed = c'.seed)
    (hsect : c.sect = c'.sect) : t.node? p = u.node? q := by
  obtain ⟨case, ⟨seed, hs, hcase⟩, hp⟩ := h
  obtain ⟨case', ⟨seed', hs', hcase'⟩, hq⟩ := h'
  rw [hseed, hs'] at hs
  obtain rfl := Option.some.inj hs
  rw [hparams, hcase'] at hcase
  obtain rfl := Except.ok.inj hcase
  rw [hp, hq, hsect]

/-- **What a sequence of runs does.** -/
theorem runAll_accounted :
    (∀ (rs : List (Key × Config)) (s : Session), (∀ r ∈ rs, r.2.Ready s.files) → Accounted rs s) ∧
    ∀ (e e' : Key) (c c' : Config) (s s' : Session) (q q' : Place),
      c.Ready s.files → c'.Ready s'.files → c.params = c'.params → c.seed = c'.seed →
      c.sect = c'.sect → c.Writes s.files q → c'.Writes s'.files q' →
      (outcome (run e c) s).2.files.node? q = (outcome (run e' c') s').2.files.node? q' := by
  constructor
  · intro rs s h
    refine
      { length_eq := ?_, turn := ?_, writes_iff := ?_, last := ?_, frame := ?_, twice := ?_, swap := ?_ }
    · rw [(runAll_eq_effects rs s h).1, length_effects]
    · rintro pre entropy c post rfl
      exact runAll_turn h
    · rintro pre entropy c post q rfl
      exact c.writes_grown (ready_turn h).2.1 q
    · rintro pre entropy c post q rfl hq hpost
      exact runAll_last h hq hpost
    · intro q hq
      exact runAll_frame h hq
    · rintro pre entropy entropy' c post rfl
      exact runAll_twice h entropy'
    · rintro pre e c e' d post rfl hplaces
      exact runAll_swap h hplaces
  · intro e e' c c' s s' q q' hc hc' hparams hseed hsect hq hq'
    have hone : c.Holds (runAll ([] ++ [(e, c)]) s).2.files q :=
      runAll_last (List.forall_mem_singleton.mpr hc) hq fun r hr => absurd hr List.not_mem_nil
    have hone' : c'.Holds (runAll ([] ++ [(e', c')]) s').2.files q' :=
      runAll_last (List.forall_mem_singleton.mpr hc') hq' fun r hr => absurd hr List.not_mem_nil
    exact hone.node?_eq hone' hparams hseed hsect

/-- A run over an old file, one with a size that is refused, and one to a file that is new: the old file holds the
header of the first one, and so would a file of another name. -/
theorem runAll_accounted_thrice :
    let s : Session := ⟨(Tree.withDevices ["work"]).put ["work", "old.h"] (.file (octets "an old text")), []⟩
    let old : Config := { output := "old.h", size := 1, seed := some 1 }
    let new : Config := { output := "new.h", size := 1, seed := some 2, verify := true }
    let other : Config := { old with output := "other.h", verify := true, printConfig := true }
    let key : Key := Vector.replicate 8 0
    let rs := [(key, old), (key, { old with size := 0 }), (key, new)]
    ((∀ r ∈ rs, r.2.Ready s.files) ∧ other.Ready s.files ∧ old.Writes s.files ["work", "old.h"] ∧
      other.Writes s.files ["work", "other.h"]) ∧
    Accounted rs s ∧ old.Holds (runAll rs s).2.files ["work", "old.h"] ∧
    (outcome (run key old) s).2.files.node? ["work", "old.h"] =
      (outcome (run key other) s).2.files.node? ["work", "other.h"] := by
  intro s old new other key rs
  have holdPlace : s.files.locateNew "old.h" = .ok ["work", "old.h"] := rfl
  have hnewPlace : s.files.locateNew "new.h" = .ok ["work", "new.h"] := rfl
  have hotherPlace : s.files.locateNew "other.h" = .ok ["work", "other.h"] := rfl
  have hold : old.Ready s.files := by
    refine ⟨⟨1, rfl, fun _ => by decide +kernel⟩, fun p hp => ?_⟩
    obtain rfl := Except.ok.inj (holdPlace.symm.trans hp)
    exact Or.inr ⟨octets "an old text", rfl⟩
  have hother : other.Ready s.files := by
    refine ⟨hold.seeded, fun p hp => ?_⟩
    obtain rfl := Except.ok.inj (hotherPlace.symm.trans hp)
    exact Or.inl rfl
  have hready : ∀ r ∈ rs, r.2.Ready s.files := by
    intro r hr
    simp only [rs, List.mem_cons, List.not_mem_nil, or_false] at hr
    rcases hr with rfl | rfl | rfl
    · exact hold
    · exact ⟨⟨1, rfl, fun hvalid => by cases hvalid⟩, hold.regular⟩
    · refine ⟨⟨2, rfl, fun _ => by decide +kernel⟩, fun p hp => ?_⟩
      obtain rfl := Except.ok.inj (hnewPlace.symm.trans hp)
      exact Or.inl rfl
  have hvalid : old.params.validate = .ok () := Params.validate_eq_ok.mpr (by decide)
  have holdWrites : old.Writes s.files ["work", "old.h"] := ⟨hvalid, create_eq_ok.mpr holdPlace⟩
  have hotherWrites : other.Writes s.files ["work", "other.h"] := ⟨hvalid, create_eq_ok.mpr hotherPlace⟩
  have haccounted := runAll_accounted.1 rs s hready
  refine ⟨⟨hready, hother, holdWrites, hotherWrites⟩, haccounted, ?_, ?_⟩
  · refine haccounted.last [] key old _ _ rfl holdWrites fun r hr hwrites => ?_
    simp only [List.mem_cons, List.not_mem_nil, or_false] at hr
    rcases hr with rfl | rfl
    · cases hwrites.1
    · have hplace := Except.ok.inj (hnewPlace.symm.trans (create_eq_ok.mp hwrites.2))
      exact absurd hplace (by decide)
  · exact runAll_accounted.2 key key old other s s _ _ hold hother rfl rfl rfl holdWrites hotherWrites

/-- Runs that trade places need not come to the same: a file is refused because of what its path leads
through, which is a file behind the run that creates it, and is missing ahead of it. -/
theorem runAll_swap_refused :
    let s : Session := ⟨Tree.withDevices ["work"], []⟩
    let outer : Config := { output := "x", size := 2, seed := some 1 }
    let inner : Config := { output := "x/y", size := 2, seed := some 1 }
    let key : Key := Vector.replicate 8 0
    outer.Ready s.files ∧ inner.Ready s.files ∧ outer.output ≠ inner.output ∧
      (runAll [(key, outer), (key, inner)] s).1[1]? =
        some (.error (.file ⟨.creating, "x/y", .notADirectory⟩)) ∧
      (runAll [(key, inner), (key, outer)] s).1[0]? =
        some (.error (.file ⟨.creating, "x/y", .notFound⟩)) := by
  intro s outer inner key
  have hplace : s.files.locateNew "x" = .ok ["work", "x"] := rfl
  have hnowhere : s.files.locateNew "x/y" = .error .notFound := rfl
  have hvalid : outer.params.validate = .ok () := Params.validate_eq_ok.mpr (by decide)
  have houter : outer.Ready s.files := by
    refine ⟨⟨1, rfl, fun _ => by decide +kernel⟩, fun p hp => ?_⟩
    obtain rfl := Except.ok.inj (hplace.symm.trans hp)
    exact Or.inl rfl
  have hinner : inner.Ready s.files :=
    ⟨houter.seeded, fun p hp => by cases hnowhere.symm.trans hp⟩
  have hresult : ∀ (t : Tree) (f : Fault), t.locateNew "x/y" = .error f →
      inner.result key t = .error (.file ⟨.creating, "x/y", f⟩) := by
    intro t f hlocate
    rcases hinner.drawn_cases key with ⟨e, hinvalid, -⟩ | ⟨-, case, -, -, hdrawn⟩
    · cases hvalid.symm.trans hinvalid
    · have houtput : t.locateNew inner.output = .error f := hlocate
      rw [Config.result, hdrawn, houtput]
  obtain ⟨b, hb⟩ := (houter.writes_iff key ["work", "x"]).mp ⟨hvalid, create_eq_ok.mpr hplace⟩
  refine ⟨houter, hinner, by decide, ?_, ?_⟩
  · rw [(runAll_eq_effects _ s (by simp [houter, hinner])).1]
    simp only [effects, hb]
    exact congrArg some (hresult _ _ rfl)
  · rw [(runAll_eq_effects _ s (by simp [houter, hinner])).1]
    exact congrArg some (hresult _ _ hnowhere)

end Accounts

end CoreBench.Stimuli
