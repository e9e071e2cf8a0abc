import CoreBench.Proofs.Settings.Printed

/-!
One setting alone. If all that a run is told is one setting, then what is loaded is what the tool makes of the table
with that setting, wherever it comes from: a variable, a configuration file, or the command line.

What is proved:
  * `ofSources_single`: a setting that is alone is the only entry of the table;
  * `load_variable`, `load_file`, `load_malformed`, `load_given`: loading one setting from each kind of source;
  * `read_spelling`: an option with a value is read in whichever way it is spelled.
-/

namespace CoreBench.Settings

open CoreBench.Files CoreBench.Text Entries

/-! ## The table of one setting -/

theorem Value.ofSources_single {sources : List Entries} {k : String} {v : Value}
    (hflat : sources.flatten = [(k, v)]) (hk : KeyPath.ofName k = [.key k]) (hv : v.isTable = false) :
    Value.ofSources sources = .table [(k, v)] := by
  rw [Value.ofSources_eq_overlay, hflat]
  show Value.place v (some (.table [])) (KeyPath.ofName k) = _
  rw [hk]
  simp [Value.place, Value.merge_of_plain hv, Value.entries, Entries.set]

/-- What a tool makes of one setting alone. -/
def loadAlone {γ : Type} (tool : Tool) (decode : Value → Option γ) (k : String) (v : Value) :
    Except LoadError γ :=
  match decode (.table [(k, v)]) with
  | none => .error (.settings tool.name)
  | some c => .ok c

section Loading

variable {γ : Type} {tool : Tool} {decode : Value → Option γ} {versioned : Bool} {files : Tree}
  {env : Environment} {args : List String} {k : String} {v : Value}

theorem Sources.load_alone {s : Sources} (hflat : s.all.flatten = [(k, v)])
    (hk : KeyPath.ofName k = [.key k]) (hv : v.isTable = false) :
    s.load tool decode =
      if s.given.all fun e => fits e.2 then loadAlone tool decode k v else .error .arguments := by
  rw [Sources.load, Value.ofSources_single hflat hk hv]
  rfl

theorem isTable_guess (s : String) : (guess s).isTable = false := by
  unfold guess
  split
  · rfl
  · split
    · rfl
    · split
      · rfl
      · split <;> rfl

/-- No variable of an environment belongs to the tool. -/
def Environment.Lacks (env : Environment) (tool : Tool) : Prop :=
  ∀ v ∈ env, settingName? tool.variableStem v.1 = none

/-- Of the variables of an environment, the one that belongs to the tool has the name of the setting `k`, and
the text `s`. -/
def Environment.SetsOnly (env : Environment) (tool : Tool) (k s : String) : Prop :=
  ∃ pre x post, env = pre ++ (x, s) :: post ∧ settingName? tool.variableStem x = some k ∧
    Environment.Lacks (pre ++ post) tool

theorem Environment.lacks_nil (tool : Tool) : Environment.Lacks [] tool :=
  fun _ hv => absurd hv List.not_mem_nil

theorem Environment.setsOnly_single {x : String} (hx : settingName? tool.variableStem x = some k)
    (s : String) : Environment.SetsOnly [(x, s)] tool k s :=
  ⟨[], x, [], rfl, hx, Environment.lacks_nil tool⟩

/-- A variable that is not the one that lists files sets its name, and lists none. -/
theorem Environment.SetsOnly.settings_eq {s : String} (h : env.SetsOnly tool k s)
    (hk : k ≠ "config") :
    env.settings tool.variableStem = [(k, guess s)] ∧ env.files tool.listVariable = [] := by
  obtain ⟨pre, x, post, rfl, hx, hothers⟩ := h
  obtain ⟨hpre, hpost⟩ := List.forall_mem_append.mp hothers
  constructor
  · have hpreSettings := (settings_of_no_variables (t := tool) hpre).1
    have hpostSettings := (settings_of_no_variables (t := tool) hpost).1
    simp only [Environment.settings] at hpreSettings hpostSettings ⊢
    rw [List.filterMap_append, hpreSettings, List.filterMap_cons, hx, Option.map_some, hpostSettings]
    rfl
  · apply Environment.files_eq_nil
    intro v hv heq
    have hname := settingName?_listVariable tool
    rw [← heq] at hname
    rcases List.mem_append.mp hv with hv | hv
    · cases (hpre v hv).symm.trans hname
    · rcases List.mem_cons.mp hv with rfl | hv
      · exact hk (Option.some.inj (hx.symm.trans hname))
      · cases (hpost v hv).symm.trans hname

/-- Loading one setting from a variable. -/
theorem load_variable {s : String} (henv : env.SetsOnly tool k s) (hconfig : k ≠ "config")
    (hk : KeyPath.ofName k = [.key k]) :
    load tool decode versioned files env [] = loadAlone tool decode k (guess s) := by
  obtain ⟨hsettings, hlisted⟩ := henv.settings_eq hconfig
  have hargs : Arguments.read tool.options versioned [] = .ok {} := rfl
  have hfiles : (configPaths tool env {}).mapM (readFile? files) = some [] := by
    rw [configPaths, hlisted]
    rfl
  rw [load_eq_sources hargs hfiles, hsettings, Sources.load_alone rfl hk (isTable_guess s)]
  rfl

/-- All that a run of the tool is told is a configuration file, which holds the given text. -/
structure TellsFile (tool : Tool) (versioned : Bool) (files : Tree) (env : Environment) (args : List String)
    (text : String) : Prop where
  lacks : env.Lacks tool
  named : ∃ path full place, Arguments.read tool.options versioned args = .ok ⟨[], [path]⟩ ∧
    configFile? files path = some full ∧ files.locate full = .ok place ∧
    files.node? place = some (.file (octets text))

theorem TellsFile.sources {text : String} (h : TellsFile tool versioned files env args text) :
    ∃ path, Arguments.read tool.options versioned args = .ok ⟨[], [path]⟩ ∧
      env.settings tool.variableStem = [] ∧
      (configPaths tool env ⟨[], [path]⟩).mapM (readFile? files) =
        (Toml.read text.toList).map fun es => [es] := by
  obtain ⟨path, full, place, hargs, hfull, hplace, hfile⟩ := h.named
  obtain ⟨hsettings, hlisted⟩ := settings_of_no_variables h.lacks
  refine ⟨path, hargs, hsettings, ?_⟩
  rw [configPaths, hlisted, List.nil_append, List.mapM_cons, readFile?_of_octets hfull hplace hfile]
  cases Toml.read text.toList <;> rfl

/-- Loading one setting from a configuration file. -/
theorem load_file {text : String} (h : TellsFile tool versioned files env args text)
    (hread : Toml.read text.toList = some [(k, v)]) (hk : KeyPath.ofName k = [.key k])
    (hv : v.isTable = false) :
    load tool decode versioned files env args = loadAlone tool decode k v := by
  obtain ⟨path, hargs, hsettings, hfiles⟩ := h.sources
  rw [hread] at hfiles
  rw [load_eq_sources hargs hfiles, hsettings, Sources.load_alone rfl hk hv]
  rfl

/-- A configuration file that is no document is an error. -/
theorem load_malformed {text : String} (h : TellsFile tool versioned files env args text)
    (hread : Toml.read text.toList = none) :
    load tool decode versioned files env args = .error (.sources tool.name) := by
  obtain ⟨path, hargs, -, hfiles⟩ := h.sources
  rw [hread] at hfiles
  rw [load, hargs]
  simp only [gather, hfiles, Option.map_none, List.all_nil, if_true]

/-- Loading one setting from the command line. -/
theorem load_given (hargs : Arguments.read tool.options versioned args = .ok ⟨[(k, v)], []⟩)
    (henv : env.Lacks tool) (hk : KeyPath.ofName k = [.key k]) (hv : v.isTable = false) :
    load tool decode versioned files env args =
      if fits v then loadAlone tool decode k v else .error .arguments := by
  obtain ⟨hsettings, hlisted⟩ := settings_of_no_variables henv
  have hfiles : (configPaths tool env ⟨[(k, v)], []⟩).mapM (readFile? files) = some [] := by
    rw [configPaths, hlisted]
    rfl
  rw [load_eq_sources hargs hfiles, hsettings, Sources.load_alone rfl hk hv]
  simp only [List.all_cons, List.all_nil, Bool.and_true]

end Loading

/-! ## Options with a value -/

/-- The ways to spell an option with a value. -/
def Opt.spellings (o : Opt) (s : String) : List (List String) :=
  [["--" ++ o.long ++ "=" ++ s], ["--" ++ o.long, s]] ++
    o.short.elim [] fun c =>
      [[String.ofList ['-', c], s], [String.ofList ['-', c] ++ s], [String.ofList ['-', c, '='] ++ s]]

/-- An option with a value is found among others by its name and by its letter. -/
structure Opt.Listed (o : Opt) (opts : List Opt) : Prop where
  takesValue : o.purpose.takesValue = true
  long : opts.find? (·.long.toList = o.long.toList) = some o
  short : ∀ c, o.short = some c → opts.find? (·.short = some c) = some o
  named : o.long.toList ≠ [] ∧ '=' ∉ o.long.toList
  letter : o.short ≠ some '-'

namespace Arguments

variable {opts : List Opt} {o : Opt} {s : String} {rest : List String} {p : Progress}

/-! One argument: an option by its name or by its letter, and a value of its own. -/

theorem option_attached (h : o.purpose.takesValue = true) (s : String) :
    Progress.option {} o (some s) = (({} : Arguments).take o s).map fun a => ⟨a, .nothing⟩ := by
  simp only [Progress.option, h, settle, bind, Except.bind]
  cases ({} : Arguments).take o s <;> rfl

theorem option_wanted (h : o.purpose.takesValue = true) :
    Progress.option {} o none = .ok ⟨{}, .wanted o⟩ := by
  simp only [Progress.option, h, settle, bind, Except.bind]

theorem long_attached (h : o.Listed opts) (p : Progress) (s : String) :
    p.long opts (o.long.toList ++ '=' :: s.toList) = p.option o (some s) := by
  have hcut : cut? ['='] (o.long.toList ++ '=' :: s.toList) = some (o.long.toList, s.toList) := by
    have hsep : cut? ['='] ('=' :: s.toList) = some ([], s.toList) := cut?_sep_append ['='] s.toList
    rw [cut?_append_of_not_mem h.named.2, hsep, Option.map_some, List.append_nil]
  simp only [Progress.long, hcut, h.long, String.ofList_toList]

theorem long_wanted (h : o.Listed opts) :
    Progress.long opts {} o.long.toList = Progress.option {} o none := by
  have hcut : cut? ['='] o.long.toList = none := cut?_eq_none_of_not_mem h.named.2
  simp only [Progress.long, hcut, h.long]

theorem letters_of_short (h : o.Listed opts) {c : Char} (hc : o.short = some c) (s : List Char) :
    Progress.letters opts {} (c :: s) = Progress.option {} o (attachedTo s) := by
  simp only [Progress.letters, h.short c hc, h.takesValue, if_true]

theorem readFrom_long {name : List Char} (hname : name ≠ []) (hs : s.toList = '-' :: '-' :: name) :
    readFrom opts p (s :: rest) = (do let p ← p.long opts name; readFrom opts p rest) := by
  obtain ⟨c, name, rfl⟩ := List.exists_cons_of_ne_nil hname
  rw [readFrom, hs]
  rfl

theorem readFrom_letters {c : Char} {t : List Char} (hc : c ≠ '-') (hs : s.toList = '-' :: c :: t) :
    readFrom opts p (s :: rest) = (do let p ← p.letters opts (c :: t); readFrom opts p rest) := by
  rw [readFrom, hs]
  split
  · next heq => exact absurd (List.cons.inj (List.cons.inj heq).2).1 hc
  · next heq => exact absurd (List.cons.inj (List.cons.inj heq).2).1 hc
  · next heq =>
    obtain ⟨rfl, rfl⟩ := List.cons.inj (List.cons.inj heq).2
    rfl
  · next h => exact absurd rfl (h c t)

theorem readFrom_plain (hs : s.toList.head? ≠ some '-') :
    readFrom opts p (s :: rest) = (do let p ← p.plain s; readFrom opts p rest) := by
  rw [readFrom]
  split
  · next heq => rw [heq] at hs; exact absurd rfl hs
  · next heq => rw [heq] at hs; exact absurd rfl hs
  · next heq => rw [heq] at hs; exact absurd rfl hs
  · rfl

/-- A value in an argument of its own is taken at the end of the line. -/
theorem readFrom_wanted (hs : s.toList.head? ≠ some '-') :
    readFrom opts ⟨{}, .wanted o⟩ [s] = ({} : Arguments).take o s := by
  rw [readFrom_plain hs]
  rfl

/-- A value attached to its option is taken at once. -/
theorem readFrom_attached (h : o.purpose.takesValue = true) (s : String) :
    (do let p ← Progress.option {} o (some s); readFrom opts p []) = ({} : Arguments).take o s := by
  rw [option_attached h]
  cases ({} : Arguments).take o s <;> rfl

theorem readFrom_long_attached (h : o.Listed opts) (s : String) :
    readFrom opts {} ["--" ++ o.long ++ "=" ++ s] = ({} : Arguments).take o s := by
  have hname : o.long.toList ++ '=' :: s.toList ≠ [] := by simp
  rw [readFrom_long hname (by simp), long_attached h]
  exact readFrom_attached h.takesValue s

/-- **However it is spelled**, an option is read with its value, if this is not empty and starts with neither `-`
nor `=`. -/
theorem readFrom_spelling (h : o.Listed opts) {c : Char} {t : List Char} (hs : s.toList = c :: t)
    (hdash : c ≠ '-') (hequals : c ≠ '=') {args : List String} (hargs : args ∈ o.spellings s) :
    readFrom opts {} args = ({} : Arguments).take o s := by
  have hvalue : s.toList.head? ≠ some '-' := by
    rw [hs]
    simpa using hdash
  simp only [Opt.spellings, List.mem_append, List.mem_cons, List.not_mem_nil, or_false] at hargs
  rcases hargs with (rfl | rfl) | hargs
  · exact readFrom_long_attached h s
  · rw [readFrom_long h.named.1 (by simp), long_wanted h, option_wanted h.takesValue]
    exact readFrom_wanted hvalue
  · cases hshort : o.short with
    | none =>
      rw [hshort] at hargs
      exact absurd hargs List.not_mem_nil
    | some d =>
      have hd : d ≠ '-' := fun heq => h.letter (heq ▸ hshort)
      simp only [hshort, Option.elim_some, List.mem_cons, List.not_mem_nil, or_false] at hargs
      rcases hargs with rfl | rfl | rfl
      · have hattached : attachedTo [] = none := rfl
        rw [readFrom_letters (t := []) hd (by simp), letters_of_short h hshort, hattached,
          option_wanted h.takesValue]
        exact readFrom_wanted hvalue
      · have hattached : attachedTo s.toList = some s := by
          rw [hs, attachedTo]
          · rw [← hs, String.ofList_toList]
          · exact List.cons_ne_nil c t
          · intro u heq
            exact hequals (List.cons.inj heq).1
        rw [readFrom_letters (t := s.toList) hd (by simp), letters_of_short h hshort, hattached]
        exact readFrom_attached h.takesValue s
      · rw [readFrom_letters (t := '=' :: s.toList) hd (by simp), letters_of_short h hshort, attachedTo,
          String.ofList_toList]
        exact readFrom_attached h.takesValue s

end Arguments

end CoreBench.Settings
