import CoreBench.Settings.Arguments

/-!
What a command line gives. Whatever is read in one step or left open for the next one belongs to an option that the
program takes, so in the end each setting is one of an option: its value as the option's kind reads it, or `true`
for a switch. A switch that is not there gives nothing, and so does an option that is not there.

What is proved:
  * `readFrom_cons`: what the first argument of a line does, and what is left to the others;
  * `Kept.readFrom`: what two readings of one line have in common, if every option keeps it;
  * `read_comes`: what a command line gives comes from the options of the program;
  * `isTable_of_gives`: no option gives a table.
-/

namespace CoreBench.Settings

open CoreBench.Text

/-- Whether a setting is what an option with this purpose gives. -/
def Purpose.Gives : Purpose → String × Value → Prop
  | .setting key kind, e => e.1 = key ∧ ∃ s, kind.read s = .ok e.2
  | .switch key, e => e = (key, .bool true)
  | _, _ => False

theorem Kind.isTable_of_read {kind : Kind} {s : String} {v : Value} (h : kind.read s = .ok v) :
    v.isTable = false := by
  cases kind with
  | path =>
    simp only [Kind.read] at h
    split at h
    · cases h
    · cases h
      rfl
  | text =>
    cases h
    rfl
  | natural max =>
    obtain ⟨n, rfl, -⟩ := Kind.read_natural h
    rfl
  | choice names =>
    simp only [Kind.read] at h
    split at h
    · cases h
      rfl
    · cases h

theorem Purpose.isTable_of_gives {p : Purpose} {e : String × Value} (h : p.Gives e) :
    e.2.isTable = false := by
  cases p with
  | setting key kind =>
    obtain ⟨-, s, hs⟩ := h
    exact Kind.isTable_of_read hs
  | switch key =>
    rw [Purpose.Gives] at h
    rw [h]
    rfl
  | file => exact h.elim
  | help => exact h.elim
  | version => exact h.elim

namespace Arguments

/-- Two steps that both go well. -/
theorem bind_eq_ok {α β : Type} {x : Except UsageError α} {f : α → Except UsageError β} {b : β}
    (h : (do let a ← x; f a) = .ok b) : ∃ a, x = .ok a ∧ f a = .ok b := by
  cases x with
  | error e => cases h
  | ok a => exact ⟨a, rfl, h⟩

/-- Whether what is left open belongs to an option among those listed. -/
def Pending.Among (opts : List Opt) : Pending → Prop
  | .nothing => True
  | .wanted o => o ∈ opts
  | .held o _ => o ∈ opts

/-! ## One argument -/

section Steps

variable {opts : List Opt}

/-- What an argument does to the state, unless it is the one that ends the options. -/
def step? (opts : List Opt) (s : String) : Option (Progress → Except UsageError Progress) :=
  match s.toList with
  | ['-', '-'] => none
  | '-' :: '-' :: t => some fun p => p.long opts t
  | '-' :: c :: t => some fun p => p.letters opts (c :: t)
  | _ => some fun p => p.plain s

theorem readFrom_cons (p : Progress) (s : String) (rest : List String) :
    readFrom opts p (s :: rest) =
      match step? opts s with
      | none => if rest = [] then p.given.settle p.pending else .error .unknownArgument
      | some f => f p >>= fun p => readFrom opts p rest := by
  rw [readFrom, step?]
  split <;> simp only [*]

theorem readFrom_of_step {s : String} {f : Progress → Except UsageError Progress} (h : step? opts s = some f)
    (p : Progress) (rest : List String) :
    readFrom opts p (s :: rest) = f p >>= fun p => readFrom opts p rest := by
  rw [readFrom_cons, h]

end Steps

/-! ## Reading side by side -/

section Side

/-- A reading that has come to `a`, and another one at its side: the first one is on its own, or the other one has
come to something related to `a`. -/
def Beside (alone : Arguments → Prop) (R : Arguments → Arguments → Prop) (a : Arguments)
    (y : Except UsageError Arguments) : Prop :=
  alone a ∨ ∃ b, y = .ok b ∧ R a b

/-- What every option keeps, with its value or as a switch. -/
structure Kept (opts : List Opt) (alone : Arguments → Prop) (R : Arguments → Arguments → Prop) : Prop where
  take : ∀ {a a' : Arguments} {y : Except UsageError Arguments} {o : Opt} {s : String}, o ∈ opts →
    Beside alone R a y → a.take o s = .ok a' → Beside alone R a' (do let b ← y; b.take o s)
  turnOn : ∀ {a a' : Arguments} {y : Except UsageError Arguments} {o : Opt}, o ∈ opts →
    Beside alone R a y → a.turnOn o = .ok a' → Beside alone R a' (do let b ← y; b.turnOn o)

/-- The same for states: what is left open is the same, and belongs to an option. -/
structure Progress.Beside (opts : List Opt) (alone : Arguments → Prop) (R : Arguments → Arguments → Prop)
    (p : Progress) (y : Except UsageError Progress) : Prop where
  among : p.pending.Among opts
  given : alone p.given ∨ ∃ q, y = .ok q ∧ q.pending = p.pending ∧ R p.given q.given

variable {opts : List Opt} {alone : Arguments → Prop} {R : Arguments → Arguments → Prop}
  {p p' : Progress} {y : Except UsageError Progress} {o : Opt}

theorem Kept.settle (K : Kept opts alone R) (hp : p.Beside opts alone R y) {a : Arguments}
    (h : p.given.settle p.pending = .ok a) :
    Arguments.Beside alone R a (do let q ← y; q.given.settle q.pending) := by
  obtain ⟨hamong, hgiven⟩ := hp
  cases hpending : p.pending with
  | nothing =>
    rw [hpending] at h hgiven
    obtain rfl := Except.ok.inj h
    rcases hgiven with halone | ⟨q, rfl, hq, hR⟩
    · exact .inl halone
    · refine .inr ⟨q.given, ?_, hR⟩
      show q.given.settle q.pending = _
      rw [hq]
      rfl
  | wanted o =>
    rw [hpending] at h
    cases h
  | held o s =>
    rw [hpending] at h hamong hgiven
    rcases hgiven with halone | ⟨q, rfl, hq, hR⟩
    · exact .inl ((K.take (y := .error .invalidValue) hamong (.inl halone) h).resolve_right nofun)
    · have htake := K.take (y := .ok q.given) hamong (.inr ⟨q.given, rfl, hR⟩) h
      show Arguments.Beside alone R a (q.given.settle q.pending)
      rw [hq]
      exact htake

/-- What the value of an option, or a switch, makes of what has been settled. -/
theorem Progress.beside_of_settled {f : Arguments → Except UsageError Arguments} {a : Arguments}
    (h : Arguments.Beside alone R a (do let b ← (do let q ← y; q.given.settle q.pending); f b)) :
    Progress.Beside opts alone R ⟨a, .nothing⟩
      (do let q ← y; let b ← q.given.settle q.pending; let b ← f b; .ok ⟨b, .nothing⟩) := by
  refine ⟨trivial, h.imp_right ?_⟩
  rintro ⟨b, hb, hR⟩
  obtain ⟨a', ha', hf⟩ := bind_eq_ok hb
  obtain ⟨q, rfl, hsettle⟩ := bind_eq_ok ha'
  refine ⟨⟨b, .nothing⟩, ?_, rfl, hR⟩
  show (do let b ← q.given.settle q.pending; let b ← f b; .ok (⟨b, .nothing⟩ : Progress)) = _
  rw [hsettle]
  show (do let b ← f a'; .ok (⟨b, .nothing⟩ : Progress)) = _
  rw [hf]
  rfl

theorem Kept.option (K : Kept opts alone R) (hp : p.Beside opts alone R y) (ho : o ∈ opts)
    {attached : Option String} (h : p.option o attached = .ok p') :
    p'.Beside opts alone R (do let q ← y; q.option o attached) := by
  unfold Progress.option at h ⊢
  split at h
  · obtain ⟨a, ha, h⟩ := bind_eq_ok h
    obtain ⟨b, hb, h⟩ := bind_eq_ok h
    obtain rfl := Except.ok.inj h
    exact Progress.beside_of_settled (K.take ho (K.settle hp ha) hb)
  · obtain ⟨a, ha, h⟩ := bind_eq_ok h
    obtain rfl := Except.ok.inj h
    refine ⟨ho, (K.settle hp ha).imp_right ?_⟩
    rintro ⟨b, hb, hR⟩
    obtain ⟨q, rfl, hsettle⟩ := bind_eq_ok hb
    refine ⟨⟨b, .wanted o⟩, ?_, rfl, hR⟩
    show (do let b ← q.given.settle q.pending; .ok (⟨b, .wanted o⟩ : Progress)) = _
    rw [hsettle]
    rfl
  · cases h
  · obtain ⟨a, ha, h⟩ := bind_eq_ok h
    obtain ⟨b, hb, h⟩ := bind_eq_ok h
    obtain rfl := Except.ok.inj h
    exact Progress.beside_of_settled (K.turnOn ho (K.settle hp ha) hb)

theorem Kept.letters (K : Kept opts alone R) (hp : p.Beside opts alone R y) {s : List Char}
    (h : p.letters opts s = .ok p') : p'.Beside opts alone R (do let q ← y; q.letters opts s) := by
  induction s generalizing p y with
  | nil =>
    obtain rfl := Except.ok.inj h
    refine ⟨hp.among, hp.given.imp_right ?_⟩
    rintro ⟨q, rfl, hq⟩
    exact ⟨q, rfl, hq⟩
  | cons c s ih =>
    cases ho : opts.find? (·.short = some c) with
    | none =>
      rw [Progress.letters, ho] at h
      cases h
    | some o =>
      have hmem := List.mem_of_find?_eq_some ho
      have hletters : ∀ q, Progress.letters opts q (c :: s) =
          if o.purpose.takesValue then q.option o (attachedTo s)
          else q.option o none >>= fun q => q.letters opts s := fun q => by rw [Progress.letters, ho]
      simp only [hletters] at h ⊢
      -- An option that wants a value takes the rest of the letters; behind a switch, the letters go on.
      split at h
      · next htakes =>
        simp only [if_pos htakes]
        exact K.option hp hmem h
      · next htakes =>
        obtain ⟨r, hr, h⟩ := bind_eq_ok h
        have hrest := ih (K.option hp hmem hr) h
        rw [bind_assoc] at hrest
        simpa only [if_neg htakes] using hrest

/-- Which option a long name is of, and with what value, does not depend on the state. -/
theorem Progress.long_cases (opts : List Opt) (s : List Char) :
    (∀ q : Progress, q.long opts s = .error .unknownArgument) ∨
      ∃ o ∈ opts, ∃ attached, ∀ q : Progress, q.long opts s = q.option o attached := by
  cases hcut : cut? ['='] s with
  | none =>
    cases ho : opts.find? (·.long.toList = s) with
    | none => exact .inl fun q => by simp only [Progress.long, hcut, ho]
    | some o =>
      exact .inr ⟨o, List.mem_of_find?_eq_some ho, none, fun q => by simp only [Progress.long, hcut, ho]⟩
  | some sides =>
    obtain ⟨name, v⟩ := sides
    cases ho : opts.find? (·.long.toList = name) with
    | none => exact .inl fun q => by simp only [Progress.long, hcut, ho]
    | some o =>
      exact .inr ⟨o, List.mem_of_find?_eq_some ho, some (String.ofList v), fun q => by
        simp only [Progress.long, hcut, ho]⟩

theorem Kept.long (K : Kept opts alone R) (hp : p.Beside opts alone R y) {s : List Char}
    (h : p.long opts s = .ok p') : p'.Beside opts alone R (do let q ← y; q.long opts s) := by
  rcases Progress.long_cases opts s with hnone | ⟨o, ho, attached, hoption⟩
  · rw [hnone] at h
    cases h
  · simp only [hoption] at h ⊢
    exact K.option hp ho h

theorem Progress.Beside.plain (hp : p.Beside opts alone R y) {s : String} (h : p.plain s = .ok p') :
    p'.Beside opts alone R (do let q ← y; q.plain s) := by
  obtain ⟨hamong, hgiven⟩ := hp
  unfold Progress.plain at h
  split at h
  · next o hpending =>
    obtain rfl := Except.ok.inj h
    rw [hpending] at hamong hgiven
    refine ⟨hamong, hgiven.imp_right ?_⟩
    rintro ⟨q, rfl, hq, hR⟩
    refine ⟨{ q with pending := .held o s }, ?_, rfl, hR⟩
    show q.plain s = _
    rw [Progress.plain, hq]
  · cases h

theorem Kept.step (K : Kept opts alone R) (hp : p.Beside opts alone R y) {s : String}
    {f : Progress → Except UsageError Progress} (hstep : step? opts s = some f) (h : f p = .ok p') :
    p'.Beside opts alone R (do let q ← y; f q) := by
  unfold step? at hstep
  split at hstep
  · cases hstep
  · obtain rfl := Option.some.inj hstep
    exact K.long hp h
  · obtain rfl := Option.some.inj hstep
    exact K.letters hp h
  · obtain rfl := Option.some.inj hstep
    exact hp.plain h

/-- **What every option keeps, a whole line keeps.** -/
theorem Kept.readFrom (K : Kept opts alone R) (hp : p.Beside opts alone R y) {args : List String} {a : Arguments}
    (h : readFrom opts p args = .ok a) :
    Arguments.Beside alone R a (do let q ← y; readFrom opts q args) := by
  -- The two states are left open, since each argument is read with what is pending from the one ahead of it.
  induction args generalizing p y with
  | nil => exact K.settle hp h
  | cons s rest ih =>
    simp only [readFrom_cons] at h ⊢
    cases hstep : step? opts s with
    | none =>
      simp only [hstep] at h ⊢
      split at h
      · next hrest =>
        simp only [if_pos hrest]
        exact K.settle hp h
      · cases h
    | some f =>
      simp only [hstep] at h ⊢
      obtain ⟨r, hr, h⟩ := bind_eq_ok h
      have hrest := ih (K.step hp hstep hr) h
      rwa [bind_assoc] at hrest

end Side

/-! ## What comes from options -/

variable {opts : List Opt}

/-- Whether all settings are given by options among those listed. -/
def Comes (opts : List Opt) (a : Arguments) : Prop :=
  ∀ e ∈ a.settings, ∃ o ∈ opts, o.purpose.Gives e

theorem add_comes {a : Arguments} (ha : a.Comes opts) {o : Opt} (ho : o ∈ opts) {key : String}
    {v : Value} (h : o.purpose.Gives (key, v)) : (a.add key v).Comes opts := by
  intro e he
  rcases List.mem_append.mp he with he | he
  · exact ha e he
  · rw [List.mem_singleton.mp he]
    exact ⟨o, ho, h⟩

theorem take_comes {a b : Arguments} (ha : a.Comes opts) {o : Opt} (ho : o ∈ opts) {s : String}
    (h : a.take o s = .ok b) : b.Comes opts := by
  unfold take at h
  split at h
  · next key kind hp =>
    split at h
    · cases h
    · cases hv : kind.read s with
      | error e => rw [hv] at h; cases h
      | ok v =>
        rw [hv] at h
        cases h
        refine add_comes ha ho ?_
        rw [hp]
        exact ⟨rfl, s, hv⟩
  · cases hv : Kind.path.read s with
    | error e => rw [hv] at h; cases h
    | ok v =>
      rw [hv] at h
      cases h
      exact ha
  · cases h

theorem turnOn_comes {a b : Arguments} (ha : a.Comes opts) {o : Opt} (ho : o ∈ opts)
    (h : a.turnOn o = .ok b) : b.Comes opts := by
  unfold turnOn at h
  split at h
  · next key hp =>
    split at h
    · cases h
    · cases h
      refine add_comes ha ho ?_
      rw [hp]
      rfl
  · cases h
  · cases h
  · cases h

/-- No second reading is needed to say where settings come from. -/
theorem kept_comes : Kept opts (Comes opts) fun _ _ => False where
  take ho h htake := .inl (take_comes (h.resolve_right fun ⟨_, _, hR⟩ => hR) ho htake)
  turnOn ho h hon := .inl (turnOn_comes (h.resolve_right fun ⟨_, _, hR⟩ => hR) ho hon)

/-- **A command line gives what its options give.** The options for help and for the version give no setting, so
those listed by the program are all that count. -/
theorem read_comes {versioned : Bool} {args : List String} {a : Arguments}
    (h : Arguments.read opts versioned args = .ok a) : a.Comes opts := by
  intro e he
  have hcomes := kept_comes.readFrom (p := {}) (y := .ok {}) ⟨trivial, .inl fun e he => absurd he List.not_mem_nil⟩ h
  obtain ⟨o, ho, hgives⟩ := hcomes.resolve_right (fun ⟨_, _, hR⟩ => hR) e he
  rcases List.mem_append.mp ho with ho | ho
  · exact ⟨o, ho, hgives⟩
  · have hword : o = .help ∨ o = .version := by
      cases versioned with
      | false => exact Or.inl (List.mem_singleton.mp ho)
      | true => simpa using ho
    rcases hword with rfl | rfl <;> exact hgives.elim

end Arguments

end CoreBench.Settings
