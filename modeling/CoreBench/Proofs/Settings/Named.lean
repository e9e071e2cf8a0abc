import CoreBench.Proofs.Settings.Alone
import CoreBench.Proofs.Settings.Switch

/-!
Names of configuration files put into a command line. Wherever an option can stand, the name of a file can; and a line
that is given more files ahead of those that it names is read as before, with these files ahead of the others.

What is proved:
  * `readFrom_ahead`: files that have been named by the start of a line are named by all of it, and do nothing else;
  * `readFrom_append`: a line is read in two parts, unless the first one ends the options;
  * `read_named`, `read_line`: what it does to a line if names of files are put in, at one place or at several.
-/

namespace CoreBench.Settings

open CoreBench.Text

/-- The option that names a configuration file. -/
def Opt.config : Opt := ⟨"config", some 'c', .file⟩

/-- The argument that names a configuration file. -/
def naming (path : String) : String :=
  "--config=" ++ path

namespace Arguments

variable {opts : List Opt}

/-! ## Files that have been named before -/

/-- The arguments with more files ahead of theirs. -/
def ahead (fs : List String) (a : Arguments) : Arguments :=
  { a with files := fs ++ a.files }

/-- The same for states. -/
def Progress.ahead (fs : List String) (p : Progress) : Progress :=
  { p with given := p.given.ahead fs }

theorem Act.ahead {f : Arguments → Except UsageError Arguments} (hf : Act f) (fs : List String) (a : Arguments) :
    f (a.ahead fs) = (f a).map (Arguments.ahead fs) := by
  cases hf with
  | add key r =>
    show (if a.has key then _ else _) = _
    simp only
    split
    · rfl
    · cases r <;> rfl
  | file s =>
    show Except.ok ({ a with files := (fs ++ a.files) ++ [s] } : Arguments) = _
    rw [List.append_assoc]
    rfl
  | refuse e => rfl

theorem settle_ahead (fs : List String) (p : Progress) :
    (p.ahead fs).given.settle (p.ahead fs).pending = (p.given.settle p.pending).map (Arguments.ahead fs) := by
  obtain ⟨a, pending⟩ := p
  cases pending with
  | nothing => rfl
  | wanted o => rfl
  | held o s => exact (act_take o s).ahead fs a

theorem option_ahead (fs : List String) (p : Progress) (o : Opt) (attached : Option String) :
    (p.ahead fs).option o attached = (p.option o attached).map (Progress.ahead fs) := by
  unfold Progress.option
  rw [settle_ahead]
  cases p.given.settle p.pending with
  | error e => split <;> rfl
  | ok a =>
    have hbehind : ∀ r : Except UsageError Arguments,
        (do let b ← r.map (Arguments.ahead fs); .ok (⟨b, .nothing⟩ : Progress)) =
          (do let b ← r; .ok (⟨b, .nothing⟩ : Progress)).map (Progress.ahead fs) := fun r => by cases r <;> rfl
    split
    · next s _ =>
      show (do let b ← (a.ahead fs).take o s; .ok (⟨b, .nothing⟩ : Progress)) = _
      rw [(act_take o s).ahead]
      exact hbehind (a.take o s)
    · rfl
    · rfl
    · show (do let b ← (a.ahead fs).turnOn o; .ok (⟨b, .nothing⟩ : Progress)) = _
      rw [(act_turnOn o).ahead]
      exact hbehind (a.turnOn o)

theorem letters_ahead (fs : List String) (p : Progress) (s : List Char) :
    (p.ahead fs).letters opts s = (p.letters opts s).map (Progress.ahead fs) := by
  induction s generalizing p with
  | nil => rfl
  | cons c s ih =>
    unfold Progress.letters
    cases opts.find? (·.short = some c) with
    | none => rfl
    | some o =>
      simp only [option_ahead]
      split
      · rfl
      · cases p.option o none with
        | error e => rfl
        | ok q => exact ih q

theorem long_ahead (fs : List String) (p : Progress) (s : List Char) :
    (p.ahead fs).long opts s = (p.long opts s).map (Progress.ahead fs) := by
  rcases Progress.long_cases opts s with hnone | ⟨o, -, attached, hoption⟩
  · rw [hnone, hnone]
    rfl
  · rw [hoption, hoption]
    exact option_ahead fs p o attached

theorem plain_ahead (fs : List String) (p : Progress) (s : String) :
    (p.ahead fs).plain s = (p.plain s).map (Progress.ahead fs) := by
  obtain ⟨a, pending⟩ := p
  cases pending <;> rfl

theorem step_ahead {s : String} {f : Progress → Except UsageError Progress} (h : step? opts s = some f)
    (fs : List String) (p : Progress) : f (p.ahead fs) = (f p).map (Progress.ahead fs) := by
  unfold step? at h
  split at h
  · cases h
  · obtain rfl := Option.some.inj h
    exact long_ahead fs p _
  · obtain rfl := Option.some.inj h
    exact letters_ahead fs p _
  · obtain rfl := Option.some.inj h
    exact plain_ahead fs p s

/-- **Files that have been named do nothing but to stand ahead of those that follow**, whether the line is read or
not. -/
theorem readFrom_ahead (fs : List String) (p : Progress) (args : List String) :
    readFrom opts (p.ahead fs) args = (readFrom opts p args).map (Arguments.ahead fs) := by
  -- The state is left open, since it is what the first argument makes of it that the others are read from.
  induction args generalizing p with
  | nil => exact settle_ahead fs p
  | cons s rest ih =>
    rw [readFrom_cons, readFrom_cons]
    cases hstep : step? opts s with
    | none =>
      simp only
      split
      · exact settle_ahead fs p
      · rfl
    | some f =>
      simp only [step_ahead hstep]
      cases f p with
      | error e => rfl
      | ok q => exact ih q

/-! ## A line in two parts -/

/-- The state behind arguments that are followed by others. -/
def advance (opts : List Opt) (p : Progress) : List String → Except UsageError Progress
  | [] => .ok p
  | s :: rest =>
    match step? opts s with
    | none => .error .unknownArgument
    | some f => f p >>= fun p => advance opts p rest

theorem step?_eq_none_iff {s : String} : step? opts s = none ↔ s = "--" := by
  have hchars : s = "--" ↔ s.toList = ['-', '-'] := String.toList_inj.symm
  rw [hchars]
  unfold step?
  split
  · next hends => exact ⟨fun _ => hends, fun _ => rfl⟩
  · next hnot hlong => simpa [hlong] using hnot
  · next hnot _ hletters => simpa [hletters] using hnot
  · next hnot _ _ => exact ⟨nofun, fun h => absurd h hnot⟩

/-- Behind `--` there is nothing but the end. -/
theorem readFrom_append (p : Progress) {pre rest : List String} (h : rest ≠ [] ∨ "--" ∉ pre) :
    readFrom opts p (pre ++ rest) = advance opts p pre >>= fun q => readFrom opts q rest := by
  induction pre generalizing p with
  | nil => rfl
  | cons s pre ih =>
    rw [List.cons_append, readFrom_cons, advance]
    cases hstep : step? opts s with
    | none =>
      have hs : s = "--" := step?_eq_none_iff.mp hstep
      have hrest : rest ≠ [] := h.resolve_right fun hnot => hnot (hs ▸ List.mem_cons_self)
      simp only
      rw [if_neg (List.append_ne_nil_of_right_ne_nil pre hrest)]
      rfl
    | some f =>
      have hpre : rest ≠ [] ∨ "--" ∉ pre := h.imp_right fun hnot hmem => hnot (List.mem_cons_of_mem s hmem)
      simp only [bind_assoc]
      congr 1
      funext q
      exact ih q hpre

theorem readFrom_of_advance {p q : Progress} {pre : List String} (h : advance opts p pre = .ok q) :
    readFrom opts p pre = q.given.settle q.pending := by
  induction pre generalizing p with
  | nil =>
    obtain rfl := Except.ok.inj h
    rfl
  | cons s pre ih =>
    rw [advance] at h
    rw [readFrom_cons]
    cases hstep : step? opts s with
    | none =>
      rw [hstep] at h
      cases h
    | some f =>
      rw [hstep] at h
      obtain ⟨r, hr, h⟩ := bind_eq_ok h
      simp only [hr]
      exact ih h

/-! ## Names of files put into a line -/

theorem step?_naming (h : Opt.config.Listed opts) (x : String) :
    step? opts (naming x) = some fun p => p.option .config (some x) := by
  have hchars : (naming x).toList = '-' :: '-' :: (Opt.config.long.toList ++ '=' :: x.toList) := by
    rw [naming, String.toList_append]
    rfl
  rw [step?, hchars]
  exact congrArg some (funext fun p => long_attached h p x)

theorem option_config {p : Progress} {a : Arguments} (hp : p.given.settle p.pending = .ok a) {x : String}
    (hx : x ≠ "") :
    p.option .config (some x) = .ok ⟨{ a with files := a.files ++ [x] }, .nothing⟩ := by
  have hread : Kind.path.read x = .ok (.text x) := if_neg hx
  have htake : a.take .config x = .ok { a with files := a.files ++ [x] } := by
    show (Kind.path.read x).map _ = _
    rw [hread]
    rfl
  rw [option_of_settled hp]
  show (do let b ← a.take .config x; .ok (⟨b, .nothing⟩ : Progress)) = _
  rw [htake]
  rfl

theorem readFrom_naming (h : Opt.config.Listed opts) {fs : List String} (hfs : ∀ x ∈ fs, x ≠ "") {p : Progress}
    {a : Arguments} (hp : p.given.settle p.pending = .ok a) (rest : List String) :
    readFrom opts p (fs.map naming ++ rest) =
      readFrom opts ⟨{ a with files := a.files ++ fs }, .nothing⟩ rest := by
  induction fs generalizing p a with
  | nil =>
    rw [List.append_nil]
    exact readFrom_of_settled hp rest
  | cons x fs ih =>
    obtain ⟨hx, hfs⟩ := List.forall_mem_cons.mp hfs
    rw [List.map_cons, List.cons_append, readFrom_of_step (step?_naming h x), option_config hp hx]
    have hrest := ih hfs (p := ⟨{ a with files := a.files ++ [x] }, .nothing⟩) rfl
    rw [List.append_assoc] at hrest
    exact hrest

/-- What is wrong with a value that stands ahead of the name of a file is reported there. -/
theorem readFrom_naming_of_error (h : Opt.config.Listed opts) {p : Progress} {e : UsageError}
    (hp : p.given.settle p.pending = .error e) (x : String) (rest : List String) :
    readFrom opts p (naming x :: rest) = .error e := by
  rw [readFrom_of_step (step?_naming h x)]
  show (do let q ← (do let a ← p.given.settle p.pending; _); readFrom opts q rest) = _
  rw [hp]
  rfl

/-- Whether an option can stand behind arguments: they are complete, and do not end the options. -/
structure Complete (opts : List Opt) (versioned : Bool) (args : List String) : Prop where
  not_mem : "--" ∉ args
  reads : ∃ a, read opts versioned args = .ok a

/-- Names of files put into a line are named by it, ahead of those that follow, and change nothing else of what is
read or of what is wrong. An option can stand where they are put, or the name of a file follows there anyway. -/
theorem read_named {versioned : Bool} (h : Opt.config.Listed (opts ++ .help :: if versioned then [.version] else []))
    {fs pre post : List String} (hfs : ∀ x ∈ fs, x ≠ "") (hpre : ∀ a, read opts versioned pre = .ok a → a.files = [])
    (hplace : Complete opts versioned pre ∨ ∃ x rest, post = naming x :: rest) :
    read opts versioned (pre ++ (fs.map naming ++ post)) = (read opts versioned (pre ++ post)).map (ahead fs) := by
  unfold read at hpre ⊢
  cases fs with
  | nil =>
    rw [List.map_nil, List.nil_append]
    cases readFrom _ {} (pre ++ post) <;> rfl
  | cons x fs =>
    have hpost : post ≠ [] ∨ "--" ∉ pre := by
      rcases hplace with hcomplete | ⟨y, rest, rfl⟩
      · exact Or.inr hcomplete.not_mem
      · exact Or.inl (List.cons_ne_nil _ _)
    have hcons : (x :: fs).map naming ++ post ≠ [] := List.cons_ne_nil _ _
    rw [readFrom_append {} hpost, readFrom_append {} (Or.inl hcons)]
    cases hq : advance _ {} pre with
    | error e => rfl
    | ok q =>
      show readFrom _ q _ = (readFrom _ q _).map _
      have hread := readFrom_of_advance hq
      cases hsettle : q.given.settle q.pending with
      | ok a =>
        -- From here on, the two lines are read alike, with the files that have been named and without them.
        have hfiles : a.files = [] := hpre a (hread.trans hsettle)
        rw [readFrom_naming h hfs hsettle, readFrom_of_settled hsettle, ← readFrom_ahead]
        simp only [Progress.ahead, Arguments.ahead, hfiles, List.nil_append, List.append_nil]
      | error e =>
        -- What is wrong is reported at the name that follows in either line.
        rcases hplace with hcomplete | ⟨y, rest, rfl⟩
        · obtain ⟨a, ha⟩ := hcomplete.reads
          rw [read, hread, hsettle] at ha
          cases ha
        · rw [List.map_cons, List.cons_append, readFrom_naming_of_error h hsettle,
            readFrom_naming_of_error h hsettle]
          rfl

/-! ## Stretches of a line -/

/-- Some arguments of a line, and files that are named behind them. -/
structure Stretch where
  others : List String
  paths : List String

/-- A line with the files of its stretches. -/
def line (ss : List Stretch) : List String :=
  ss.flatMap fun s => s.others ++ s.paths.map naming

/-- The line without the files. -/
def others (ss : List Stretch) : List String :=
  ss.flatMap Stretch.others

/-- The files of all stretches. -/
def paths (ss : List Stretch) : List String :=
  ss.flatMap Stretch.paths

/-- Whether there is a place for files behind each stretch of a line that goes on with the files `named`: the
arguments up to there name none, and an option can stand there, or the name of a file follows anyway. -/
def HasPlaces (opts : List Opt) (versioned : Bool) (ss : List Stretch) (named : List String) : Prop :=
  ∀ front, front <+: ss → (∀ a, read opts versioned (others front) = .ok a → a.files = []) ∧
    (Complete opts versioned (others front) ∨ front = ss ∧ named ≠ [])

theorem line_cons (s : Stretch) (ss : List Stretch) : line (s :: ss) = s.others ++ (s.paths.map naming ++ line ss) := by
  rw [line, List.flatMap_cons, List.append_assoc]
  rfl

theorem others_concat (ss : List Stretch) (s : Stretch) : others (ss ++ [s]) = others ss ++ s.others := by
  rw [others, List.flatMap_append, List.flatMap_singleton]
  rfl

theorem ahead_ahead (fs gs : List String) (r : Except UsageError Arguments) :
    (r.map (ahead gs)).map (ahead fs) = r.map (ahead (fs ++ gs)) := by
  cases r with
  | error e => rfl
  | ok a =>
    show Except.ok ({ a with files := fs ++ (gs ++ a.files) } : Arguments) = _
    rw [← List.append_assoc]
    rfl

section Line

variable {versioned : Bool} (h : Opt.config.Listed (opts ++ .help :: if versioned then [.version] else []))
  {named post : List String}

include h

/-- Files are put in stretch by stretch, those in front being read without theirs. -/
theorem read_stretches {front back : List Stretch} (hpaths : ∀ x ∈ paths back, x ≠ "")
    (hplaces : HasPlaces opts versioned (front ++ back) named) :
    read opts versioned (others front ++ (line back ++ (named.map naming ++ post))) =
      (read opts versioned (others (front ++ back) ++ (named.map naming ++ post))).map (ahead (paths back)) := by
  induction back generalizing front with
  | nil =>
    rw [List.append_nil]
    show read opts versioned (others front ++ (named.map naming ++ post)) = _
    cases read opts versioned (others front ++ (named.map naming ++ post)) <;> rfl
  | cons s back ih =>
    have hnext : front ++ s :: back = (front ++ [s]) ++ back := by rw [List.append_assoc, List.singleton_append]
    rw [hnext] at hplaces ⊢
    obtain ⟨hnone, hplace⟩ := hplaces (front ++ [s]) (List.prefix_append _ _)
    rw [paths, List.flatMap_cons] at hpaths
    obtain ⟨hfs, hrest⟩ := List.forall_mem_append.mp hpaths
    have hplace' : Complete opts versioned (others (front ++ [s])) ∨
        ∃ x rest, line back ++ (named.map naming ++ post) = naming x :: rest := by
      apply hplace.imp_right
      intro ⟨hall, hnamed⟩
      obtain ⟨x, more, rfl⟩ := List.exists_cons_of_ne_nil hnamed
      have hback : back = [] := List.self_eq_append_right.mp hall
      rw [hback]
      exact ⟨x, _, rfl⟩
    rw [line_cons, List.append_assoc, List.append_assoc, ← List.append_assoc (others front), ← others_concat,
      read_named h hfs hnone hplace', ih hrest hplaces, ahead_ahead]
    rfl

/-- **Files can be named anywhere ahead of those that a line names**: what is read differs in the files and in nothing
else, and what is wrong does not differ. -/
theorem read_line {ss : List Stretch} (hpaths : ∀ x ∈ paths ss, x ≠ "")
    (hplaces : HasPlaces opts versioned ss named) :
    read opts versioned (line ss ++ (named.map naming ++ post)) =
      (read opts versioned (others ss ++ (named.map naming ++ post))).map (ahead (paths ss)) := by
  have hall : HasPlaces opts versioned ([] ++ ss) named := hplaces
  exact read_stretches h hpaths hall

end Line

end Arguments

end CoreBench.Settings
