import CoreBench.Proofs.Settings.Precedence

/-!
A switch put into a command line. Wherever the name of a switch is put into a line and read as one, the line gives
what it gave without the switch, and the switch besides; and at the front it is always read as one, unless the line
has the switch already. What is loaded then differs in the setting of the switch and in nothing else.

What is proved:
  * `readFrom_inserted`: a line that is read with a switch put in is read without it;
  * `readFrom_front`: a line is read with a switch ahead of it exactly if it is read and does not have the switch;
  * `load_switched`: what is loaded with the switch on the command line.
-/

namespace CoreBench.Settings

open CoreBench.Files CoreBench.Text

namespace Arguments

variable {k key : String} {a b : Arguments}

theorem has_add (a : Arguments) (key k : String) (v : Value) : (a.add key v).has k = (a.has k || k == key) := by
  rw [has, has, add, List.lookup_append, Option.isSome_or]
  congr 1
  rw [List.lookup_cons]
  cases k == key <;> rfl

/-! ## What the switch adds -/

/-- What two lines give of which the second one has a switch that the first one lacks. -/
structure Switched (k : String) (a b : Arguments) : Prop where
  lacks : a.has k = false
  settings : ∃ xs ys, a.settings = xs ++ ys ∧ b.settings = xs ++ (k, .bool true) :: ys
  files : b.files = a.files

theorem Switched.has_self (h : Switched k a b) : b.has k = true := by
  obtain ⟨xs, ys, -, hb⟩ := h.settings
  rw [has, hb, List.lookup_append, List.lookup_cons_self, Option.or_some]
  rfl

theorem Switched.has_of_ne (h : Switched k a b) (hne : key ≠ k) : b.has key = a.has key := by
  obtain ⟨xs, ys, ha, hb⟩ := h.settings
  rw [has, has, ha, hb, List.lookup_append, List.lookup_append, List.lookup_cons, beq_false_of_ne hne]

theorem Switched.add (h : Switched k a b) (hne : key ≠ k) (v : Value) :
    Switched k (a.add key v) (b.add key v) := by
  obtain ⟨xs, ys, ha, hb⟩ := h.settings
  refine ⟨?_, ⟨xs, ys ++ [(key, v)], ?_, ?_⟩, h.files⟩
  · rw [has_add, h.lacks, Bool.false_or]
    exact beq_false_of_ne hne.symm
  · rw [Arguments.add, ha, List.append_assoc]
  · rw [Arguments.add, hb, List.append_assoc, List.cons_append]

theorem switched_turnOn {o : Opt} (hpurpose : o.purpose = .switch k) (h : a.turnOn o = .ok b) : Switched k a b := by
  simp only [turnOn, hpurpose] at h
  split at h
  · cases h
  · next hhas =>
    obtain rfl := Except.ok.inj h
    exact ⟨Bool.eq_false_iff.mpr hhas, ⟨a.settings, [], (List.append_nil _).symm, rfl⟩, rfl⟩

/-! ## What an option does -/

/-- The three things that an option can do to what a line has given so far. -/
inductive Act : (Arguments → Except UsageError Arguments) → Prop
  | add (key : String) (r : Except UsageError Value) :
      Act fun a => if a.has key then .error .repeatedOption else r.map (a.add key)
  | file (s : String) : Act fun a => .ok { a with files := a.files ++ [s] }
  | refuse (e : UsageError) : Act fun _ => .error e

theorem act_take (o : Opt) (s : String) : Act fun a => a.take o s := by
  unfold take
  cases o.purpose with
  | setting key kind => exact .add key (kind.read s)
  | file =>
    cases Kind.path.read s with
    | error e => exact .refuse e
    | ok v => exact .file s
  | switch key => exact .refuse .unwantedValue
  | help => exact .refuse .unwantedValue
  | version => exact .refuse .unwantedValue

theorem act_turnOn (o : Opt) : Act fun a => a.turnOn o := by
  unfold turnOn
  cases o.purpose with
  | switch key => exact .add key (.ok (.bool true))
  | help => exact .refuse .helpRequested
  | version => exact .refuse .versionRequested
  | setting key kind => exact .refuse .invalidValue
  | file => exact .refuse .invalidValue

variable {f : Arguments → Except UsageError Arguments} {a' b' : Arguments}

/-- What has been given stays given. -/
theorem Act.has (hf : Act f) (h : a.has k = true) (ha : f a = .ok a') : a'.has k = true := by
  cases hf with
  | add key r =>
    simp only at ha
    split at ha
    · cases ha
    · cases r with
      | error e => cases ha
      | ok v =>
        obtain rfl := Except.ok.inj ha
        rw [has_add, h, Bool.true_or]
  | file s =>
    obtain rfl := Except.ok.inj ha
    exact h
  | refuse e => cases ha

/-- What can be done without the switch can be done with it, or gives the switch. -/
theorem Act.forward (hf : Act f) (h : Switched k a b) (ha : f a = .ok a') :
    a'.has k = true ∨ ∃ b', f b = .ok b' ∧ Switched k a' b' := by
  cases hf with
  | add key r =>
    simp only at ha ⊢
    split at ha
    · cases ha
    · next hhas =>
      cases r with
      | error e => cases ha
      | ok v =>
        obtain rfl := Except.ok.inj ha
        by_cases hne : key = k
        · exact .inl (by rw [has_add, hne, beq_self_eq_true, Bool.or_true])
        · rw [h.has_of_ne hne, if_neg hhas]
          exact .inr ⟨_, rfl, h.add hne v⟩
  | file s =>
    obtain rfl := Except.ok.inj ha
    exact .inr ⟨_, rfl, h.lacks, h.settings, congrArg (· ++ [s]) h.files⟩
  | refuse e => cases ha

/-- What can be done with the switch can be done without it. -/
theorem Act.back (hf : Act f) (h : Switched k a b) (hb : f b = .ok b') : ∃ a', f a = .ok a' ∧ Switched k a' b' := by
  cases hf with
  | add key r =>
    simp only at hb ⊢
    split at hb
    · cases hb
    · next hhas =>
      -- The switch itself is there already, so it is another name that is added.
      have hne : key ≠ k := fun heq => hhas (heq ▸ h.has_self)
      cases r with
      | error e => cases hb
      | ok v =>
        obtain rfl := Except.ok.inj hb
        rw [← h.has_of_ne hne, if_neg hhas]
        exact ⟨_, rfl, h.add hne v⟩
  | file s =>
    obtain rfl := Except.ok.inj hb
    exact ⟨_, rfl, h.lacks, h.settings, congrArg (· ++ [s]) h.files⟩
  | refuse e => cases hb

variable {opts : List Opt}

theorem kept_forward (k : String) : Kept opts (fun a => a.has k = true) (Switched k) := by
  have hact : ∀ {f : Arguments → Except UsageError Arguments} {a a' : Arguments} {y : Except UsageError Arguments},
      Act f → Beside (fun a => a.has k = true) (Switched k) a y → f a = .ok a' →
        Beside (fun a => a.has k = true) (Switched k) a' (do let b ← y; f b) := by
    rintro f a a' y hf (hhas | ⟨b, rfl, h⟩) ha
    · exact .inl (hf.has hhas ha)
    · exact hf.forward h ha
  exact ⟨fun _ => hact (act_take _ _), fun _ => hact (act_turnOn _)⟩

theorem kept_back (k : String) : Kept opts (fun _ => False) fun b a => Switched k a b := by
  have hact : ∀ {f : Arguments → Except UsageError Arguments} {b b' : Arguments} {y : Except UsageError Arguments},
      Act f → Beside (fun _ => False) (fun b a => Switched k a b) b y → f b = .ok b' →
        Beside (fun _ => False) (fun b a => Switched k a b) b' (do let a ← y; f a) := by
    rintro f b b' y hf (h | ⟨a, rfl, h⟩) hb
    · exact h.elim
    · exact .inr (hf.back h hb)
  exact ⟨fun _ => hact (act_take _ _), fun _ => hact (act_turnOn _)⟩

/-! ## Reading a line with the switch -/

/-- A switch is found among others by its name. -/
structure SwitchAmong (o : Opt) (k : String) (opts : List Opt) : Prop where
  purpose : o.purpose = .switch k
  found : opts.find? (·.long.toList = o.long.toList) = some o
  named : o.long.toList ≠ [] ∧ '=' ∉ o.long.toList

variable {p : Progress} {o : Opt}

/-- Options depend on what is settled by then, however it has been given. -/
theorem option_of_settled (h : p.given.settle p.pending = .ok a) (o : Opt) (attached : Option String) :
    p.option o attached = Progress.option ⟨a, .nothing⟩ o attached := by
  simp only [Progress.option, h]
  rfl

theorem letters_of_settled (h : p.given.settle p.pending = .ok a) (c : Char) (s : List Char) :
    p.letters opts (c :: s) = Progress.letters opts ⟨a, .nothing⟩ (c :: s) := by
  simp only [Progress.letters, option_of_settled h]

theorem plain_of_settled (h : p.given.settle p.pending = .ok a) (s : String) :
    p.plain s = Progress.plain ⟨a, .nothing⟩ s := by
  cases hpending : p.pending with
  | nothing => simp only [Progress.plain, hpending]
  | wanted o =>
    rw [hpending] at h
    cases h
  | held o v => simp only [Progress.plain, hpending]

/-- Whether a value is judged now or with the next option makes no difference. -/
theorem readFrom_of_settled (h : p.given.settle p.pending = .ok a) (args : List String) :
    readFrom opts p args = readFrom opts ⟨a, .nothing⟩ args := by
  cases args with
  | nil => exact h
  | cons s rest =>
    rw [readFrom_cons, readFrom_cons, h]
    unfold step?
    split
    · rfl
    · next f hstep =>
      have hf : f p = f ⟨a, .nothing⟩ := by
        split at hstep
        · cases hstep
        · obtain rfl := Option.some.inj hstep
          simp only [Progress.long, option_of_settled h]
        · obtain rfl := Option.some.inj hstep
          exact letters_of_settled h _ _
        · obtain rfl := Option.some.inj hstep
          exact plain_of_settled h s
      rw [hf]

/-- The name of a switch, as an argument. -/
theorem step?_switch (h : SwitchAmong o k opts) :
    step? opts ("--" ++ o.long) = some fun p => p.option o none := by
  obtain ⟨c, name, hname⟩ := List.exists_cons_of_ne_nil h.named.1
  have hchars : ("--" ++ o.long).toList = '-' :: '-' :: c :: name := by
    rw [String.toList_append, hname]
    rfl
  have hcut : cut? ['='] o.long.toList = none := cut?_eq_none_of_not_mem h.named.2
  have hlong : ∀ p : Progress, p.long opts (c :: name) = p.option o none := fun p => by
    simp only [← hname, Progress.long, hcut, h.found]
  rw [step?, hchars]
  exact congrArg some (funext hlong)

theorem option_switch (h : SwitchAmong o k opts) {q : Progress} (hq : p.option o none = .ok q) :
    ∃ a b, p.given.settle p.pending = .ok a ∧ a.turnOn o = .ok b ∧ q = ⟨b, .nothing⟩ := by
  simp only [Progress.option, h.purpose, Purpose.takesValue] at hq
  obtain ⟨a, ha, hq⟩ := bind_eq_ok hq
  obtain ⟨b, hb, hq⟩ := bind_eq_ok hq
  exact ⟨a, b, ha, hb, (Except.ok.inj hq).symm⟩

/-- **A line that is read with a switch put in is read without it**, and the switch is all that is missing. -/
theorem readFrom_inserted (h : SwitchAmong o k opts) {pre post : List String}
    (hb : readFrom opts p (pre ++ ("--" ++ o.long) :: post) = .ok b) :
    ∃ a, readFrom opts p (pre ++ post) = .ok a ∧ Switched k a b := by
  induction pre generalizing p with
  | nil =>
    rw [List.nil_append, readFrom_of_step (step?_switch h)] at hb
    obtain ⟨q, hq, hb⟩ := bind_eq_ok hb
    obtain ⟨a₀, b₀, hsettle, hon, rfl⟩ := option_switch h hq
    -- From here on, the rest of the line is read with the switch and without it.
    have hside : Progress.Beside opts (fun _ => False) (fun b a => Switched k a b) ⟨b₀, .nothing⟩
        (.ok ⟨a₀, .nothing⟩) := ⟨trivial, .inr ⟨_, rfl, rfl, switched_turnOn h.purpose hon⟩⟩
    rw [List.nil_append, readFrom_of_settled hsettle]
    exact ((kept_back k).readFrom hside hb).resolve_left id
  | cons s pre ih =>
    rw [List.cons_append, readFrom_cons] at hb
    rw [List.cons_append, readFrom_cons]
    cases hstep : step? opts s with
    | none =>
      simp only [hstep] at hb
      rw [if_neg (List.append_ne_nil_of_right_ne_nil _ (List.cons_ne_nil _ _))] at hb
      cases hb
    | some f =>
      simp only [hstep] at hb ⊢
      obtain ⟨q, hq, hb⟩ := bind_eq_ok hb
      rw [hq]
      exact ih hb

/-- **A line is read with a switch ahead of it** exactly if it is read and does not have the switch. -/
theorem readFrom_front (h : SwitchAmong o k opts) {args : List String} :
    (∃ b, readFrom opts {} (("--" ++ o.long) :: args) = .ok b) ↔
      ∃ a, readFrom opts {} args = .ok a ∧ a.has k = false := by
  constructor
  · rintro ⟨b, hb⟩
    have hb' : readFrom opts {} ([] ++ ("--" ++ o.long) :: args) = .ok b := hb
    obtain ⟨a, ha, hswitched⟩ := readFrom_inserted h hb'
    exact ⟨a, ha, hswitched.lacks⟩
  · rintro ⟨a, ha, hlacks⟩
    have hon : ({} : Arguments).turnOn o = .ok (({} : Arguments).add k (.bool true)) := by
      simp only [turnOn, h.purpose]
      rfl
    have hside : Progress.Beside opts (fun a => a.has k = true) (Switched k) {}
        (.ok ⟨({} : Arguments).add k (.bool true), .nothing⟩) :=
      ⟨trivial, .inr ⟨_, rfl, rfl, switched_turnOn h.purpose hon⟩⟩
    rcases (kept_forward k).readFrom hside ha with hhas | ⟨b, hb, -⟩
    · rw [hlacks] at hhas
      cases hhas
    · have hoption : Progress.option {} o none = .ok ⟨({} : Arguments).add k (.bool true), .nothing⟩ := by
        simp only [Progress.option, h.purpose, Purpose.takesValue]
        show (do let a ← ({} : Arguments).turnOn o; .ok (⟨a, .nothing⟩ : Progress)) = _
        rw [hon]
        rfl
      refine ⟨b, ?_⟩
      rw [readFrom_of_step (step?_switch h), hoption]
      exact hb

end Arguments

/-! ## Loading with the switch -/

open Arguments Entries

theorem has_eq_false_iff {a : Arguments} {k : String} : a.has k = false ↔ last? k a.settings = none := by
  rw [last?_eq_none_iff, ← sets_eq_false_iff]
  rfl

theorem last?_switched {k l : String} {a b : Arguments} (h : Switched k a b) :
    last? l b.settings = if l = k then some (.bool true) else last? l a.settings := by
  obtain ⟨xs, ys, ha, hb⟩ := h.settings
  have hlacks := has_eq_false_iff.mp h.lacks
  rw [ha, last?_append, Option.or_eq_none_iff] at hlacks
  rw [ha, hb, last?_append, last?_cons, last?_append]
  by_cases hl : l = k
  · rw [hl, hlacks.1, if_pos rfl, if_pos rfl]
    rfl
  · rw [if_neg (Ne.symm hl), if_neg hl, Option.or_none]

/-- What is on the command line stands over everything else. -/
theorem lookup_ofSources_given {k : String} (hk : KeyPath.ofName k = [.key k]) {given : Entries}
    (h : given.Plainly k) (sources : List Entries) :
    (Value.ofSources (sources ++ [given])).entries.lookup k =
      (last? k given).or ((Value.ofSources sources).entries.lookup k) := by
  rw [Value.ofSources, List.foldl_append]
  exact Value.lookup_overlay hk h _

variable {tool : Tool} {k : String} {files : Tree} {env : Environment} {a b : Arguments}

theorem load_eq_ok_iff {γ : Type} {decode : Value → Option γ} {versioned : Bool} {args : List String} {c : γ} :
    load tool decode versioned files env args = .ok c ↔
      ∃ a v, Arguments.read tool.options versioned args = .ok a ∧ gather tool files env a = .ok v ∧
        decode v = some c := by
  constructor
  · intro h
    rw [load] at h
    split at h
    · cases h
    · next a ha =>
      split at h
      · cases h
      · next v hv =>
        split at h
        · cases h
        · next d hd =>
          obtain rfl := Except.ok.inj h
          exact ⟨a, v, ha, hv, hd⟩
  · rintro ⟨a, v, ha, hv, hd⟩
    simp only [load, ha, hv, hd]

/-- What is gathered if all files can be read: the command line comes last. -/
theorem gather_eq_ok_iff {v : Value} :
    gather tool files env a = .ok v ↔ (a.settings.all fun e => fits e.2) = true ∧
      ∃ contents, (configPaths tool env a).mapM (readFile? files) = some contents ∧
        v = Value.ofSources ((contents ++ [env.settings tool.variableStem]) ++ [a.settings]) := by
  have hlast : ∀ contents : List Entries, (contents ++ [env.settings tool.variableStem]) ++ [a.settings]
      = contents ++ [env.settings tool.variableStem, a.settings] := fun contents => by
    rw [List.append_assoc]
    rfl
  simp only [hlast, gather]
  constructor
  · intro h
    split at h
    · next hall =>
      split at h
      · cases h
      · next contents hcontents => exact ⟨hall, contents, hcontents, (Except.ok.inj h).symm⟩
    · cases h
  · rintro ⟨hall, contents, hcontents, rfl⟩
    rw [if_pos hall, hcontents]

/-- What the command line gives is what a configuration is made of. -/
theorem load_given_stands {γ : Type} {decode : Value → Option γ} {versioned : Bool} {args : List String}
    (hnames : ∀ l ∈ tool.settingNames, KeyPath.ofName l = [.key l])
    (ha : Arguments.read tool.options versioned args = .ok a) (hk : k ∈ tool.settingNames)
    (hhas : a.has k = true) {c : γ} (hload : load tool decode versioned files env args = .ok c) :
    ∃ v w, decode v = some c ∧ v.entries.lookup k = some w ∧ (k, w) ∈ a.settings := by
  obtain ⟨w, hw⟩ := exists_last?_of_sets (show Entries.sets a.settings k = true from hhas)
  obtain ⟨later, earlier, hsplit, -⟩ := List.lookup_eq_some_iff.mp hw
  have hmem : (k, w) ∈ a.settings := by
    rw [← List.mem_reverse, hsplit]
    exact List.mem_append_right _ List.mem_cons_self
  obtain ⟨a', v, ha', hgather, hdecode⟩ := load_eq_ok_iff.mp hload
  obtain rfl := Except.ok.inj (ha.symm.trans ha')
  obtain ⟨-, contents, -, rfl⟩ := gather_eq_ok_iff.mp hgather
  refine ⟨_, w, hdecode, ?_, hmem⟩
  rw [lookup_ofSources_given (hnames k hk) (plainly_of_given hnames ha k), hw]
  rfl

theorem gather_switched (hnames : ∀ l ∈ tool.settingNames, KeyPath.ofName l = [.key l])
    (ha : ∀ l, a.settings.Plainly l) (hb : ∀ l, b.settings.Plainly l) (h : Switched k a b) {v : Value}
    (hgather : gather tool files env a = .ok v) :
    ∃ w, gather tool files env b = .ok w ∧ ∀ l ∈ tool.settingNames,
      w.entries.lookup l = if l = k then some (.bool true) else v.entries.lookup l := by
  have hpaths : configPaths tool env b = configPaths tool env a := by rw [configPaths, configPaths, h.files]
  have hfits : (b.settings.all fun e => fits e.2) = a.settings.all fun e => fits e.2 := by
    obtain ⟨xs, ys, ha, hb⟩ := h.settings
    rw [ha, hb, List.all_append, List.all_append, List.all_cons]
    rfl
  obtain ⟨hall, contents, hcontents, rfl⟩ := gather_eq_ok_iff.mp hgather
  refine ⟨_, gather_eq_ok_iff.mpr ⟨hfits.trans hall, contents, hpaths ▸ hcontents, rfl⟩, fun l hl => ?_⟩
  rw [lookup_ofSources_given (hnames l hl) (hb l), lookup_ofSources_given (hnames l hl) (ha l), last?_switched h]
  by_cases hlk : l = k
  · rw [if_pos hlk, if_pos hlk]
    rfl
  · rw [if_neg hlk, if_neg hlk]

/-- **A switch changes its own setting and no other one.** `on` is what the switch does to a configuration. -/
theorem load_switched {γ : Type} {decode : Value → Option γ} {on : γ → γ}
    (hnames : ∀ l ∈ tool.settingNames, KeyPath.ofName l = [.key l])
    (hon : ∀ {v w : Value} {c : γ}, (∀ l ∈ tool.settingNames,
      w.entries.lookup l = if l = k then some (.bool true) else v.entries.lookup l) →
      decode v = some c → decode w = some (on c))
    {versioned : Bool} {args args' : List String} (ha : Arguments.read tool.options versioned args = .ok a)
    (hb : Arguments.read tool.options versioned args' = .ok b) (h : Switched k a b) {c : γ}
    (hload : load tool decode versioned files env args = .ok c) :
    load tool decode versioned files env args' = .ok (on c) := by
  obtain ⟨a', v, ha', hgather, hdecode⟩ := load_eq_ok_iff.mp hload
  obtain rfl := Except.ok.inj (ha.symm.trans ha')
  obtain ⟨w, hw, hlookup⟩ :=
    gather_switched hnames (plainly_of_given hnames ha) (plainly_of_given hnames hb) h hgather
  exact load_eq_ok_iff.mpr ⟨b, w, hb, hw, hon hlookup hdecode⟩

end CoreBench.Settings
