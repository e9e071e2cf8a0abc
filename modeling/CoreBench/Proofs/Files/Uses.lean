import CoreBench.Proofs.Files.Content
import CoreBench.Proofs.Session
import Mathlib.Data.List.Induction

/-!
Files as a map from paths to contents. Files are created and written, read as texts, and opened and read, in any order
and by any plain paths; what is answered is what a map would answer that keeps, for each path, what was written there
last.

What is proved:
  * `does_step`: what one use of a file comes to, and the files that it leaves;
  * `Does.content?_eq`: what it leaves at each path;
  * `runUses_kept`: what is left at each path behind uses one after the other;
  * `uses_as_map`: each use is answered from what is kept at its path, and touches nothing else.
-/

namespace CoreBench.Files

open CoreBench.Text CoreBench.Files.Tree CoreBench.Step

/-! ## Uses of files -/

/-- A use of a file. -/
inductive Use where
  | create (path : String) (content : Octets)
  | readText (path : String)
  | openRead (path : String)

/-- What a use answers with. -/
inductive Answer where
  | done
  | text (s : String)
  | stream (s : Stream)

namespace Use

/-- The path of a use. -/
def path : Use → String
  | create path _ => path
  | readText path => path
  | openRead path => path

/-- The access that a use starts with. -/
def access : Use → Access
  | create _ _ => .creating
  | readText _ => .reading
  | openRead _ => .opening

/-- A use as a step. A file that is created is written as a whole. -/
def step : Use → Step FileError Answer
  | create path content => do
    let p ← Step.create path
    Step.append path p content
    pure .done
  | readText path => do
    let s ← Step.readText path
    pure (.text s)
  | openRead path => do
    let s ← Step.openRead path
    pure (.stream s)

end Use

/-- A use with what it came to. -/
abbrev Used := Use × Except FileError Answer

/-- Uses one after the other: what each comes to, and the session behind them. A use that fails stops none of those
behind it. -/
def runUses : List Use → Session → List Used × Session
  | [], s => ([], s)
  | u :: us, s =>
    let (r, s) := outcome u.step s
    let (later, s) := runUses us s
    ((u, r) :: later, s)

/-- What a use has left at a path: what it has written, if it was a creation of that path and succeeded. -/
def left? (path : String) : Used → Option Octets
  | (.create q content, .ok _) => if q = path then some content else none
  | _ => none

/-- What is kept at a path behind uses of files: what the last one to leave something there has left, or else what was
there at the start. -/
def kept (start : Tree) (history : List Used) (path : String) : Option Octets :=
  (history.reverse.findSome? (left? path)).or (start.content? path)

/-! ## One use -/

/-- What a use does to files: what it comes to, and the files that it leaves. -/
inductive Does (t : Tree) : Use → Except FileError Answer → Tree → Prop
  | created {path : String} {content : Octets} {p : Place} : t.locateNew path = .ok p → Regular (t.node? p) →
      Does t (.create path content) (.ok .done) (t.put p (.file content))
  | notCreated {path : String} {content : Octets} {f : Fault} : t.locateNew path = .error f →
      Does t (.create path content) (.error ⟨.creating, path, f⟩) t
  | text {path s : String} : t.content? path = some (octets s) →
      Does t (.readText path) (.ok (.text s)) t
  | notText {path : String} {b : Octets} : t.content? path = some b → ofOctets? b = none →
      Does t (.readText path) (.error ⟨.reading, path, .notText⟩) t
  | notRead {path : String} {f : Fault} : t.content? path = none →
      Does t (.readText path) (.error ⟨.reading, path, f⟩) t
  | opened {path : String} {s : Stream} {b : Octets} : t.content? path = some b → s.whole = .ok b →
      Does t (.openRead path) (.ok (.stream s)) t
  | directory {path : String} {s : Stream} {f : Fault} : t.content? path = none → s.whole = .error f →
      Does t (.openRead path) (.ok (.stream s)) t
  | notOpened {path : String} {f : Fault} : t.content? path = none →
      Does t (.openRead path) (.error ⟨.opening, path, f⟩) t

section OneUse

variable {s : Session} {t after : Tree} {u : Use} {r : Except FileError Answer} {path : String}

/-- A creation goes to where its path leads, and replaces what is there. -/
theorem does_create (ht : s.files.Ordinary) (hpath : PlainPath path) (content : Octets) :
    ∃ r after, Ends (Use.create path content).step s r after ∧ Does s.files (.create path content) r after := by
  cases hp : s.files.locateNew path with
  | error f =>
    have hrefused := create_eq_error.mpr ⟨f, hp, rfl⟩
    exact ⟨_, _, Ends.bind_error (Ends.create_error hrefused) _, .notCreated hp⟩
  | ok p =>
    have hregular := ht.regular hpath hp
    have hempty : (s.files.put p (.file [])).node? p = some (.file []) := node?_put hregular.ne_root
    have hwritten : (s.files.put p (.file [])).append p content = .ok (s.files.put p (.file content)) := by
      rw [append_file hempty, put_put, List.nil_append]
    refine ⟨_, _, ?_, .created hp hregular⟩
    refine Ends.bind (Ends.create (create_of_regular hp hregular)) fun _ => ?_
    exact Ends.bind (Ends.append hwritten) fun _ => Ends.pure Answer.done

theorem does_readText (ht : s.files.Ordinary) (hpath : PlainPath path) :
    ∃ r after, Ends (Use.readText path).step s r after ∧ Does s.files (.readText path) r after := by
  have hread := Ends.readText (s := s) path
  cases hcontent : s.files.content? path with
  | none =>
    obtain ⟨f, hrefused⟩ := readText_of_no_content ht hpath hcontent
    rw [hrefused] at hread
    exact ⟨_, _, Ends.bind_error hread _, .notRead hcontent⟩
  | some b =>
    cases htext : ofOctets? b with
    | none =>
      rw [readText_of_no_text hcontent htext] at hread
      exact ⟨_, _, Ends.bind_error hread _, .notText hcontent htext⟩
    | some a =>
      rw [ofOctets?_eq_some_iff.mp htext] at hcontent
      rw [readText_of_text hcontent] at hread
      exact ⟨_, _, Ends.bind hread fun _ => Ends.pure (Answer.text a), .text hcontent⟩

theorem does_openRead (ht : s.files.Ordinary) (hpath : PlainPath path) :
    ∃ r after, Ends (Use.openRead path).step s r after ∧ Does s.files (.openRead path) r after := by
  have hopen := Ends.openRead (s := s) path
  cases hcontent : s.files.content? path with
  | none =>
    rcases openRead_of_no_content ht hpath hcontent with ⟨f, hrefused⟩ | ⟨a, f, hopened, hfails⟩
    · rw [hrefused] at hopen
      exact ⟨_, _, Ends.bind_error hopen _, .notOpened hcontent⟩
    · rw [hopened] at hopen
      exact ⟨_, _, Ends.bind hopen fun _ => Ends.pure (Answer.stream a), .directory hcontent hfails⟩
  | some b =>
    rw [openRead_of_content hcontent] at hopen
    exact ⟨_, _, Ends.bind hopen fun _ => Ends.pure (Answer.stream [.part b]), .opened hcontent (whole_part b)⟩

/-- What a use of a file comes to is one of these. -/
theorem does_step (ht : s.files.Ordinary) (hpath : PlainPath u.path) :
    Does s.files u (outcome u.step s).1 (outcome u.step s).2.files := by
  have hdoes : ∃ r after, Ends u.step s r after ∧ Does s.files u r after := by
    cases u with
    | create path content => exact does_create ht hpath content
    | readText path => exact does_readText ht hpath
    | openRead path => exact does_openRead ht hpath
  obtain ⟨r, after, hends, hdoes⟩ := hdoes
  rwa [hends.eq, hends.files_eq]

namespace Does

theorem grown (h : Does t u r after) : Grown t after := by
  cases h with
  | created _ hregular => exact grown_put hregular _
  | notCreated | text | notText | notRead | opened | directory | notOpened => exact Grown.refl t

/-- A use that succeeds in creating a path leaves there what it has written, and all else stays. -/
theorem content?_eq (h : Does t u r after) (hu : PlainPath u.path) (hpath : PlainPath path) :
    after.content? path = (left? path (u, r)).or (t.content? path) := by
  cases h with
  | @created q content p hp hregular =>
    rw [content?_put hp hregular hu hpath, left?]
    by_cases heq : path = q
    · rw [if_pos heq, if_pos heq.symm, Option.some_or]
    · rw [if_neg heq, if_neg (Ne.symm heq), Option.none_or]
  | notCreated | text | notText | notRead | opened | directory | notOpened => rfl

end Does

end OneUse

/-! ## Uses one after the other -/

section Runs

variable {us : List Use} {u : Use} {s : Session} {history : List Used} {path : String}

theorem runUses_concat (us : List Use) (u : Use) (s : Session) :
    runUses (us ++ [u]) s =
      ((runUses us s).1 ++ [(u, (outcome u.step (runUses us s).2).1)], (outcome u.step (runUses us s).2).2) := by
  induction us generalizing s with
  | nil => rfl
  | cons v us ih =>
    simp only [List.cons_append, runUses, ih]

theorem kept_concat (start : Tree) (history : List Used) (x : Used) (path : String) :
    kept start (history ++ [x]) path = (left? path x).or (kept start history path) := by
  rw [kept, kept, List.reverse_concat, List.findSome?_cons]
  cases left? path x <;> rfl

/-- Uses only add files, and behind them there is at each path what is kept there. -/
theorem runUses_kept (hs : s.files.Ordinary) (hus : ∀ u ∈ us, PlainPath u.path) :
    Grown s.files (runUses us s).2.files ∧
      ∀ path, PlainPath path → (runUses us s).2.files.content? path = kept s.files (runUses us s).1 path := by
  -- The last use comes last in the induction too: what it leaves at its path counts before all else.
  induction us using List.reverseRecOn with
  | nil => exact ⟨Grown.refl s.files, fun path _ => rfl⟩
  | append_singleton us u ih =>
    obtain ⟨hbefore, hu⟩ := List.forall_mem_append.mp hus
    obtain ⟨hgrown, hkept⟩ := ih hbefore
    have huPath := hu u List.mem_cons_self
    have hdoes := does_step (hgrown.ordinary hs) huPath
    rw [runUses_concat]
    refine ⟨hgrown.trans hdoes.grown, fun path hpath => ?_⟩
    rw [hdoes.content?_eq huPath hpath, hkept path hpath, kept_concat]

end Runs

/-! ## Files as a map -/

/-- How a use is answered if `c` is kept at its path. A file is created wherever it could have been at the start; octets
are read exactly if they are kept there; and as a text, exactly if they are those of a text. -/
def Answered (start : Tree) (c : Option Octets) : Use → Except FileError Answer → Prop
  | .create path _, r => r = .ok .done ↔ ∃ p, start.locateNew path = .ok p
  | .readText path, r =>
    (∀ a, r = .ok (.text a) ↔ c = some (octets a)) ∧
      ∀ b, c = some b → ofOctets? b = none → r = .error ⟨.reading, path, .notText⟩
  | .openRead _, r => ∀ b, (∃ a, r = .ok (.stream a) ∧ a.whole = .ok b) ↔ c = some b

/-- How files change by a use: what is created holds what is written to it and nothing else, and every other place is as
it was; and if nothing is created, nothing changes. -/
def Changes (before after : Tree) : Use → Except FileError Answer → Prop
  | .create path content, .ok _ =>
    after.node? (before.placeOf path) = some (.file content) ∧
      ∀ q, q ≠ before.placeOf path → after.node? q = before.node? q
  | _, _ => after = before

namespace Does

variable {start t after : Tree} {u : Use} {r : Except FileError Answer}

theorem answered (h : Does t u r after) (hgrown : Grown start t) : Answered start (t.content? u.path) u r := by
  cases h with
  | @created path content p hp _ =>
    exact iff_of_true rfl ⟨p, (locateNew_grown_eq_ok hgrown).mp hp⟩
  | @notCreated path content f hp =>
    refine iff_of_false (by simp) ?_
    rintro ⟨p, hstart⟩
    cases hp.symm.trans ((locateNew_grown_eq_ok hgrown).mpr hstart)
  | @text path a hcontent =>
    rw [Use.path, hcontent, Answered]
    refine ⟨fun a' => ⟨fun e => ?_, fun e => ?_⟩, fun b e hnone => ?_⟩
    · cases e
      rfl
    · rw [octets_inj (Option.some.inj e)]
    · rw [← Option.some.inj e, ofOctets?_octets] at hnone
      cases hnone
  | @notText path b hcontent hnone =>
    rw [Use.path, hcontent, Answered]
    refine ⟨fun a => iff_of_false (by simp) fun e => ?_, fun _ _ _ => rfl⟩
    rw [Option.some.inj e, ofOctets?_octets] at hnone
    cases hnone
  | notRead hcontent =>
    rw [Use.path, hcontent, Answered]
    exact ⟨fun a => iff_of_false (by simp) (by simp), fun b e => by cases e⟩
  | @opened path a b hcontent hwhole =>
    rw [Use.path, hcontent, Answered]
    refine fun c => ⟨?_, ?_⟩
    · rintro ⟨a', e, hwhole'⟩
      cases e
      exact congrArg some (Except.ok.inj (hwhole.symm.trans hwhole'))
    · intro e
      obtain rfl := Option.some.inj e
      exact ⟨a, rfl, hwhole⟩
  | directory hcontent hfails =>
    rw [Use.path, hcontent, Answered]
    refine fun c => iff_of_false ?_ (by simp)
    rintro ⟨a, e, hwhole⟩
    cases e
    cases hfails.symm.trans hwhole
  | notOpened hcontent =>
    rw [Use.path, hcontent, Answered]
    exact fun c => iff_of_false (by simp) (by simp)

theorem changes (h : Does t u r after) (hu : PlainPath u.path) : Changes t after u r := by
  cases h with
  | @created path content p hp hregular =>
    obtain rfl := eq_placeOf_of_locateNew hu hp
    exact ⟨node?_put hregular.ne_root, fun q hq => node?_put_of_ne hq⟩
  | notCreated | text | notText | notRead | opened | directory | notOpened => rfl

/-- An error is about the access that was asked for, and its path. -/
theorem error_eq (h : Does t u r after) {e : FileError} (he : r = .error e) :
    e.access = u.access ∧ e.path = u.path := by
  cases h with
  | created | text | opened | directory => cases he
  | notCreated | notText | notRead | notOpened =>
    cases he
    exact ⟨rfl, rfl⟩

end Does

/-- **Files are a map from paths to contents.** Behind any uses of files by plain paths, a use is answered from what is
kept at its path: what the last creation of that path that succeeded has written, or what was there at the start. A
creation replaces what its path leads to and nothing else; no other use changes anything, and none does that fails. An
error names the access and the path as it was given. -/
theorem uses_as_map (s : Session) (us : List Use) (u : Use) (hs : s.files.Ordinary)
    (hus : ∀ v ∈ us, PlainPath v.path) (hu : PlainPath u.path) :
    let history := (runUses us s).1
    let now := (runUses us s).2
    let r := (outcome u.step now).1
    let next := (outcome u.step now).2
    runUses (us ++ [u]) s = (history ++ [(u, r)], next) ∧
    Answered s.files (kept s.files history u.path) u r ∧
    Changes now.files next.files u r ∧
    (∀ e, r = .error e → e.access = u.access ∧ e.path = u.path) ∧
    ∀ path, PlainPath path → next.files.content? path = kept s.files (history ++ [(u, r)]) path := by
  intro history now r next
  obtain ⟨hgrown, hkept⟩ := runUses_kept hs hus
  have hdoes := does_step (hgrown.ordinary hs) hu
  refine ⟨runUses_concat us u s, ?_, hdoes.changes hu, fun e => hdoes.error_eq, fun path hpath => ?_⟩
  · rw [← hkept u.path hu]
    exact hdoes.answered hgrown
  · rw [hdoes.content?_eq hu hpath, hkept path hpath, kept_concat]

/-- An old file that is made shorter and is no text any more, and one that is new, with refused uses between them: the
old one can be opened and read but is refused as a text, and the new one is read as what was written. -/
theorem uses_as_map_shortened :
    let t := (Tree.withDevices ["work"]).put ["work", "sub"] .directory
    let t := t.put ["work", "old"] (.file (octets "an old text"))
    let s : Session := ⟨t, []⟩
    let us : List Use :=
      [.create "old" [0xFF], .create "sub/new" (octets "new"), .create "no/way" [], .openRead "sub", .create "sub" [1]]
    (t.Ordinary ∧ (∀ v ∈ us, PlainPath v.path) ∧ PlainPath "old" ∧ PlainPath "sub/new") ∧
      (∃ a, (outcome (Use.openRead "old").step (runUses us s).2).1 = .ok (.stream a) ∧ a.whole = .ok [0xFF]) ∧
      (outcome (Use.readText "old").step (runUses us s).2).1 = .error ⟨.reading, "old", .notText⟩ ∧
      (outcome (Use.readText "sub/new").step (runUses us s).2).1 = .ok (.text "new") := by
  intro empty t s us
  have ht : t.Ordinary := ordinary_of_nodes (by decide)
  have hus : ∀ v ∈ us, PlainPath v.path := by decide
  have hold : PlainPath "old" := by decide
  have hnew : PlainPath "sub/new" := by decide
  have hkept : kept t (runUses us s).1 "old" = some [0xFF] := rfl
  have hkept' : kept t (runUses us s).1 "sub/new" = some (octets "new") := rfl
  obtain ⟨-, hopened, -⟩ := uses_as_map s us (.openRead "old") ht hus hold
  obtain ⟨-, ⟨-, hrefused⟩, -⟩ := uses_as_map s us (.readText "old") ht hus hold
  obtain ⟨-, ⟨hread, -⟩, -⟩ := uses_as_map s us (.readText "sub/new") ht hus hnew
  exact ⟨⟨ht, hus, hold, hnew⟩, (hopened [0xFF]).mpr hkept, hrefused [0xFF] hkept (by cbv), (hread "new").mpr hkept'⟩

end CoreBench.Files
