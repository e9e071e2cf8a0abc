import CoreBench.Program
import CoreBench.Proofs.Settings.Arguments
import CoreBench.Proofs.Settings.Fieldwise
import CoreBench.Proofs.Settings.Files
import CoreBench.Proofs.Settings.Overlay
import CoreBench.Proofs.Toml.Document
import Mathlib

/-!
Which source counts. Each field of a loaded configuration is what the last source that sets it makes of it, as if
that setting stood alone; what the other sources say of the field does not matter, however wrong it is.

What is proved:
  * `Sources.last?_winning`: the winning setting alone is what all the sources come to;
  * `Fieldwise.loads_iff`, `Fieldwise.lookup_eq`: loading field by field, for any tool that is made so;
  * `mapM_configPaths`: files that a variable lists come ahead of those that the command line names;
  * `load_option_by_option`: loading option by option, for both programs.
-/

namespace CoreBench

open CoreBench.Files CoreBench.Text

namespace Settings

namespace Entries

/-- Whether a source sets a name. -/
def sets (es : Entries) (k : String) : Bool :=
  (es.lookup k).isSome

/-- The settings of one name alone. -/
def only (es : Entries) (k : String) : Entries :=
  es.filter fun e => e.1 = k

theorem sets_eq_false_iff {es : Entries} {k : String} : es.sets k = false ↔ ∀ e ∈ es, k ≠ e.1 := by
  rw [sets, Option.isSome_eq_false_iff, Option.isNone_iff_eq_none, List.lookup_eq_none_iff]
  simp only [bne_iff_ne]

theorem last?_eq_none_iff {es : Entries} {k : String} : es.last? k = none ↔ ∀ e ∈ es, k ≠ e.1 := by
  rw [last?, List.lookup_eq_none_iff]
  simp only [List.mem_reverse, bne_iff_ne]

theorem last?_of_not_sets {es : Entries} {k : String} (h : es.sets k = false) : es.last? k = none :=
  last?_eq_none_iff.mpr (sets_eq_false_iff.mp h)

theorem exists_last?_of_sets {es : Entries} {k : String} (h : es.sets k = true) :
    ∃ v, es.last? k = some v := by
  refine Option.ne_none_iff_exists'.mp fun hnone => ?_
  rw [sets_eq_false_iff.mpr (last?_eq_none_iff.mp hnone)] at h
  cases h

theorem last?_only (es : Entries) (k : String) : (es.only k).last? k = es.last? k := by
  induction es with
  | nil => rfl
  | cons e es ih =>
    rw [last?_cons, ← ih]
    by_cases h : e.1 = k
    · rw [only, List.filter_cons_of_pos (by simpa using h), last?_cons]
      rfl
    · rw [only, List.filter_cons_of_neg (by simpa using h), if_neg h, Option.or_none]
      rfl

theorem mem_only {es : Entries} {k : String} {e : String × Value} :
    e ∈ es.only k ↔ e ∈ es ∧ e.1 = k := by
  rw [only, List.mem_filter, decide_eq_true_eq]

end Entries

open Entries

/-! ## Sources -/

/-- The sources of a run: the settings in each configuration file, in the order in which the files are read,
those in the environment, and those on the command line. -/
structure Sources where
  files : List Entries
  env : Entries
  given : Entries

namespace Sources

/-- All sources, those that count least first. -/
def all (s : Sources) : List Entries :=
  s.files ++ [s.env, s.given]

/-- What is left of the sources if all is taken away but the settings of a name in the last source that sets
it. -/
def winning (s : Sources) (k : String) : Sources :=
  if s.given.sets k then ⟨[], [], s.given.only k⟩
  else if s.env.sets k then ⟨[], s.env.only k, []⟩
  else ⟨((s.files.reverse.find? (·.sets k)).map (·.only k)).toList, [], []⟩

/-- The configuration that sources give. -/
def load {γ : Type} (tool : Tool) (decode : Value → Option γ) (s : Sources) : Except LoadError γ :=
  if s.given.all fun e => fits e.2 then
    match decode (Value.ofSources s.all) with
    | none => .error (.settings tool.name)
    | some c => .ok c
  else .error .arguments

theorem flatten_all (s : Sources) : s.all.flatten = s.files.flatten ++ (s.env ++ s.given) := by
  simp [all]

/-- The last setting in files is the last one in the last file that has some. -/
theorem last?_flatten (files : List Entries) (k : String) :
    last? k files.flatten = last? k
      ((files.reverse.find? (·.sets k)).map (·.only k)).toList.flatten := by
  -- From the end, since the search starts there: the last file decides if it sets the name.
  induction files using List.reverseRecOn with
  | nil => rfl
  | append_singleton files es ih =>
    rw [List.flatten_append, List.flatten_singleton, last?_append, List.reverse_append,
      List.reverse_singleton, List.singleton_append]
    cases h : es.sets k with
    | true =>
      obtain ⟨v, hv⟩ := exists_last?_of_sets h
      have hfind : (es :: files.reverse).find? (·.sets k) = some es := List.find?_cons_of_pos h
      rw [hfind, hv]
      simp only [Option.map_some, Option.toList_some, List.flatten_singleton, last?_only, hv,
        Option.some_or]
    | false =>
      rw [List.find?_cons_of_neg (by simp [h]), last?_of_not_sets h, ih]
      rfl

/-- The winning setting of a name is what all sources come to at that name. -/
theorem last?_winning (s : Sources) (k : String) :
    last? k (s.winning k).all.flatten = last? k s.all.flatten := by
  -- Both sides ask the command line first, then the environment, then the files.
  rw [flatten_all, flatten_all, last?_append, last?_append, last?_append, last?_append]
  unfold winning
  cases hg : s.given.sets k with
  | true =>
    obtain ⟨v, hv⟩ := exists_last?_of_sets hg
    simp only [if_true, last?_only, hv, Option.some_or]
  | false =>
    rw [last?_of_not_sets hg]
    cases he : s.env.sets k with
    | true =>
      obtain ⟨v, hv⟩ := exists_last?_of_sets he
      simp only [if_true, Bool.false_eq_true, if_false, last?_only, hv, Option.some_or,
        Option.none_or]
      rfl
    | false =>
      rw [last?_of_not_sets he, last?_flatten s.files]
      rfl

/-- Nothing but the one name is set by what wins for it. -/
theorem mem_winning {s : Sources} {k : String} {e : String × Value}
    (h : e ∈ (s.winning k).all.flatten) : e ∈ s.all.flatten ∧ e.1 = k := by
  rw [flatten_all] at h ⊢
  unfold winning at h
  split at h
  · obtain ⟨he, hk⟩ := mem_only.mp (show e ∈ s.given.only k by simpa using h)
    exact ⟨List.mem_append_right _ (List.mem_append_right _ he), hk⟩
  · split at h
    · obtain ⟨he, hk⟩ := mem_only.mp (show e ∈ s.env.only k by simpa using h)
      exact ⟨List.mem_append_right _ (List.mem_append_left _ he), hk⟩
    · cases hf : s.files.reverse.find? (·.sets k) with
      | none =>
        rw [hf] at h
        simp at h
      | some es =>
        rw [hf] at h
        obtain ⟨he, hk⟩ := mem_only.mp (show e ∈ es.only k by simpa using h)
        have hes : es ∈ s.files := List.mem_reverse.mp (List.mem_of_find?_eq_some hf)
        exact ⟨List.mem_append_left _ (List.mem_flatten.mpr ⟨es, hes, he⟩), hk⟩

theorem last?_winning_of_ne {k l : String} (h : l ≠ k) (s : Sources) :
    last? l (s.winning k).all.flatten = none := by
  rw [last?_eq_none_iff]
  intro e he
  rw [(mem_winning he).2]
  exact h

theorem winning_given (s : Sources) (k : String) : (s.winning k).given = s.given.only k := by
  have hnone : s.given.sets k = false → s.given.only k = [] := fun h => by
    refine List.eq_nil_iff_forall_not_mem.mpr fun e he => ?_
    obtain ⟨hmem, hk⟩ := mem_only.mp he
    exact sets_eq_false_iff.mp h e hmem hk.symm
  unfold winning
  split
  · rfl
  · next h =>
    rw [hnone (Bool.eq_false_iff.mpr h)]
    split <;> rfl

theorem load_eq_ok_iff {γ : Type} {tool : Tool} {decode : Value → Option γ} {s : Sources} {c : γ} :
    s.load tool decode = .ok c ↔
      (∀ e ∈ s.given, fits e.2 = true) ∧ decode (Value.ofSources s.all) = some c := by
  unfold load
  constructor
  · intro h
    split at h
    · next hfits =>
      split at h
      · cases h
      · next d hd =>
        cases h
        exact ⟨List.all_eq_true.mp hfits, hd⟩
    · cases h
  · intro ⟨hfits, hd⟩
    rw [if_pos (List.all_eq_true.mpr hfits), hd]

end Sources

/-! ## Field by field -/

namespace Fieldwise

variable {γ : Type} {tool : Tool} {decode : Value → Option γ} {fields : γ → Fields}

/-- What a name that a tool takes comes to in sources that set it plainly. -/
theorem lookup_all (F : Fieldwise tool decode fields) {s : Sources} {k : String}
    (hk : k ∈ tool.settingNames) (h : Plainly k s.all.flatten) :
    (Value.ofSources s.all).entries.lookup k = last? k s.all.flatten :=
  Value.lookup_ofSources (F.ofName_eq k hk) h

/-- The winning setting of a name shows there as it does among all sources, and nothing shows at another. -/
theorem lookup_winning (F : Fieldwise tool decode fields) {s : Sources}
    (h : ∀ k ∈ tool.settingNames, Plainly k s.all.flatten) {k l : String} (hl : l ∈ tool.settingNames) :
    (Value.ofSources (s.winning k).all).entries.lookup l =
      if l = k then (Value.ofSources s.all).entries.lookup l else none := by
  have hwin : Plainly l (s.winning k).all.flatten :=
    (h l hl).mono fun e he => (Sources.mem_winning he).1
  rw [F.lookup_all hl hwin]
  by_cases hlk : l = k
  · subst hlk
    rw [if_pos rfl, F.lookup_all hl (h l hl), Sources.last?_winning]
  · rw [if_neg hlk, Sources.last?_winning_of_ne hlk]

/-- Sources can be loaded exactly if for each name the winning setting can be loaded alone. -/
theorem loads_iff (F : Fieldwise tool decode fields) {s : Sources}
    (h : ∀ k ∈ tool.settingNames, Plainly k s.all.flatten)
    (hgiven : ∀ e ∈ s.given, e.1 ∈ tool.settingNames) :
    (∃ c, s.load tool decode = .ok c) ↔
      ∀ k ∈ tool.settingNames, ∃ d, (s.winning k).load tool decode = .ok d := by
  simp only [Sources.load_eq_ok_iff, Sources.winning_given]
  constructor
  · -- Alone, a setting shows what it shows among the others, and the fields without a setting never fail.
    intro ⟨c, hfits, hc⟩ k hk
    obtain ⟨d, hd⟩ := F.decode_of_part (v := Value.ofSources (s.winning k).all) fun l hl => by
      rw [F.lookup_winning h hl]
      by_cases hlk : l = k
      · rw [if_pos hlk, F.part_of_decode hc l hl]
        rfl
      · rw [if_neg hlk]
        exact F.part_none l hl
    exact ⟨d, fun e he => hfits e (mem_only.mp he).1, hd⟩
  · -- All the fields are read together as each of them is read alone.
    intro hall
    obtain ⟨c, hc⟩ := F.decode_of_part (v := Value.ofSources s.all) fun k hk => by
      obtain ⟨d, -, hd⟩ := hall k hk
      have hpart := F.part_of_decode hd k hk
      rw [F.lookup_winning h hk, if_pos rfl] at hpart
      rw [hpart]
      rfl
    refine ⟨c, fun e he => ?_, hc⟩
    obtain ⟨d, hfits, -⟩ := hall e.1 (hgiven e he)
    exact hfits e (mem_only.mpr ⟨he, rfl⟩)

/-- A field of what is loaded is that of the winning setting alone. -/
theorem lookup_eq (F : Fieldwise tool decode fields) {s : Sources}
    (h : ∀ k ∈ tool.settingNames, Plainly k s.all.flatten) {k : String} (hk : k ∈ tool.settingNames)
    {c d : γ} (hc : s.load tool decode = .ok c) (hd : (s.winning k).load tool decode = .ok d) :
    (fields c).lookup k = (fields d).lookup k := by
  apply Option.some.inj
  calc some ((fields c).lookup k)
      = F.part k ((Value.ofSources s.all).entries.lookup k) :=
        (F.part_of_decode (Sources.load_eq_ok_iff.mp hc).2 k hk).symm
    _ = F.part k ((Value.ofSources (s.winning k).all).entries.lookup k) := by
        rw [F.lookup_winning h hk, if_pos rfl]
    _ = some ((fields d).lookup k) := F.part_of_decode (Sources.load_eq_ok_iff.mp hd).2 k hk

/-- A field that no source sets is that of a configuration made of nothing. -/
theorem lookup_eq_of_unset (F : Fieldwise tool decode fields) {s : Sources}
    (h : ∀ k ∈ tool.settingNames, Plainly k s.all.flatten) {k : String} (hk : k ∈ tool.settingNames)
    (hunset : ∀ es ∈ s.all, es.sets k = false) {c d : γ} (hc : s.load tool decode = .ok c)
    (hd : decode (.table []) = some d) : (fields c).lookup k = (fields d).lookup k := by
  have hnone : last? k s.all.flatten = none := by
    rw [last?_eq_none_iff]
    intro e he
    obtain ⟨es, hes, hmem⟩ := List.mem_flatten.mp he
    exact sets_eq_false_iff.mp (hunset es hes) e hmem
  apply Option.some.inj
  calc some ((fields c).lookup k)
      = F.part k ((Value.ofSources s.all).entries.lookup k) :=
        (F.part_of_decode (Sources.load_eq_ok_iff.mp hc).2 k hk).symm
    _ = F.part k ((Value.table []).entries.lookup k) := by
        rw [F.lookup_all hk (h k hk), hnone]
        rfl
    _ = some ((fields d).lookup k) := F.part_of_decode hd k hk

end Fieldwise

/-! ## Loading -/

theorem Purpose.key?_of_gives {p : Purpose} {e : String × Value} (h : p.Gives e) :
    p.key? = some e.1 := by
  cases p with
  | setting key kind => exact congrArg some h.1.symm
  | switch key =>
    rw [Purpose.Gives] at h
    rw [h]
    rfl
  | file => exact h.elim
  | help => exact h.elim
  | version => exact h.elim

section

variable {tool : Tool} {versioned : Bool} {args : List String} {given : Arguments}

theorem settingNames_of_given (hargs : Arguments.read tool.options versioned args = .ok given)
    {e : String × Value} (he : e ∈ given.settings) : e.1 ∈ tool.settingNames := by
  obtain ⟨o, ho, hgives⟩ := Arguments.read_comes hargs e he
  exact List.mem_filterMap.mpr ⟨o, ho, Purpose.key?_of_gives hgives⟩

/-- A command line sets its options plainly. -/
theorem plainly_of_given (hnames : ∀ k ∈ tool.settingNames, KeyPath.ofName k = [.key k])
    (hargs : Arguments.read tool.options versioned args = .ok given) (k : String) :
    Plainly k given.settings := by
  refine plainly_of_names (fun e he => ?_) k
  obtain ⟨o, -, hgives⟩ := Arguments.read_comes hargs e he
  exact ⟨hnames e.1 (settingNames_of_given hargs he), Purpose.isTable_of_gives hgives⟩

/-- A run whose files can be read loads what its sources give. -/
theorem load_eq_sources {γ : Type} {decode : Value → Option γ} {files : Tree} {env : Environment}
    {contents : List Entries}
    (hargs : Arguments.read tool.options versioned args = .ok given)
    (hfiles : (configPaths tool env given).mapM (readFile? files) = some contents) :
    load tool decode versioned files env args =
      Sources.load tool decode ⟨contents, env.settings tool.variableStem, given.settings⟩ := by
  rw [load, hargs]
  simp only [gather, hfiles, Sources.load, Sources.all]
  cases given.settings.all fun e => fits e.2 with
  | true => rfl
  | false => rfl

/-- Files that a variable lists are read ahead of those that the command line names. -/
theorem mapM_configPaths {files : Tree} {env : Environment} {paths : List String} {listed named : List Entries}
    (hpaths : env.Lists tool.listVariable paths) (hlisted : List.Forall₂ (Reads files) paths listed)
    (hnamed : List.Forall₂ (Reads files) given.files named) :
    (configPaths tool env given).mapM (readFile? files) = some (listed ++ named) := by
  rw [configPaths, Environment.lists_iff.mp hpaths]
  exact mapM_readFile? (List.rel_append hlisted hnamed)

end

end Settings

/-! ## Both programs -/

/-- The programs that there are. -/
inductive Program.Known : {γ : Type} → Program γ → Prop where
  | traceStats : Known CoreBench.traceStats
  | stimuliGen (entropy : Random.Key) : Known (CoreBench.stimuliGen entropy)

open CoreBench.Settings

theorem Program.Known.fieldwise {γ : Type} {p : Program γ} (hp : p.Known) :
    Nonempty (Fieldwise p.tool p.decode p.fields) := by
  cases hp with
  | traceStats => exact ⟨Trace.fieldwise⟩
  | stimuliGen entropy => exact ⟨Stimuli.fieldwise⟩

/-- Without settings, a program has a configuration of defaults. -/
theorem Program.Known.decode_empty {γ : Type} {p : Program γ} (hp : p.Known) :
    ∃ unset, p.decode (.table []) = some unset := by
  cases hp with
  | traceStats => exact ⟨_, Trace.Config.ofSettings?_empty⟩
  | stimuliGen entropy => exact ⟨_, Stimuli.Config.ofSettings?_empty⟩

/-- **Loading goes option by option.** Let the files that a variable lists and those that the command line names be
readable and well formed, and let files and environment set the options, if at all, by their plain names and to plain
values. The sources count in this order: listed files, named files, environment, command line. Then loading goes well
exactly if for each option the winning setting, the one in the last source that has some, can be loaded alone; and each
field is what the winning setting alone makes of it, or the default if no source sets it. -/
theorem load_option_by_option {γ : Type} {p : Program γ} (hp : p.Known) {versioned : Bool}
    {files : Tree} {env : Environment} {args : List String} {given : Arguments}
    {paths : List String} {listed named : List Entries}
    (hargs : Arguments.read p.tool.options versioned args = .ok given)
    (hpaths : env.Lists p.tool.listVariable paths)
    (hlisted : List.Forall₂ (Reads files) paths listed)
    (hnamed : List.Forall₂ (Reads files) given.files named)
    (hplain : ∀ k ∈ p.tool.settingNames,
      ∀ es ∈ listed ++ named ++ [env.settings p.tool.variableStem], es.Plainly k) :
    let s : Sources := ⟨listed ++ named, env.settings p.tool.variableStem, given.settings⟩
    ((∃ c, load p.tool p.decode versioned files env args = .ok c) ↔
      ∀ k ∈ p.tool.settingNames, ∃ d, (s.winning k).load p.tool p.decode = .ok d) ∧
    ∃ unset, p.decode (.table []) = some unset ∧
      ∀ c, load p.tool p.decode versioned files env args = .ok c → ∀ k ∈ p.tool.settingNames,
        (∀ d, (s.winning k).load p.tool p.decode = .ok d →
          (p.fields c).lookup k = (p.fields d).lookup k) ∧
        ((∀ es ∈ s.all, es.sets k = false) → (p.fields c).lookup k = (p.fields unset).lookup k) := by
  intro s
  obtain ⟨F⟩ := hp.fieldwise
  obtain ⟨unset, hunset⟩ := hp.decode_empty
  rw [load_eq_sources hargs (mapM_configPaths hpaths hlisted hnamed)]
  have hall : ∀ k ∈ p.tool.settingNames, Entries.Plainly k s.all.flatten := by
    intro k hk
    refine Entries.plainly_flatten fun es hes => ?_
    have hcases : es ∈ listed ++ named ++ [env.settings p.tool.variableStem] ∨ es = given.settings := by
      simpa [s, Sources.all, or_assoc] using hes
    rcases hcases with hes | rfl
    · exact hplain k hk es hes
    · exact plainly_of_given F.ofName_eq hargs k
  refine ⟨F.loads_iff hall fun e he => settingNames_of_given hargs he, unset, hunset, fun c hc k hk =>
    ⟨fun d hd => ?_, fun hnot => ?_⟩⟩
  · exact F.lookup_eq hall hk hc hd
  · exact F.lookup_eq_of_unset hall hk hnot hc hunset

/-- Each kind of source has the last word on one option. A listed file turns the switch on; the file that is named
stands over it with its output; a variable stands over the range of that file, which is none, and the command line over
the size, which the listed file gives as a word. -/
theorem load_option_by_option_shadowed :
    let files : Tree := ⟨[(["f"], .file (octets "output = \"f\"\nsize = \"many\"\nverify = true\n")),
      (["g"], .file (octets "output = \"g\"\nrange = -1\n"))], []⟩
    let env : Environment := [("STIMULI_CONFIG", "f"), ("STIMULI_RANGE", "5")]
    let fields := Stimuli.Config.fields
    ∃ c, load Stimuli.tool Stimuli.Config.ofSettings? true files env ["-c", "g", "--size", "3"] = .ok c ∧
      (fields c).lookup "verify" = some (.bool true) ∧ (fields c).lookup "output" = some (.text "g") ∧
      (fields c).lookup "range" = some (.int 5) ∧ (fields c).lookup "size" = some (.int 3) ∧
      (fields c).lookup "section" = some (.text ".heapsram") ∧ (fields c).lookup "seed" = none := by
  intro files env fields
  -- What each option comes to alone, and what none comes to.
  have hverify : Sources.load Stimuli.tool Stimuli.Config.ofSettings? ⟨[[("verify", .bool true)]], [], []⟩ =
      .ok { verify := true } := rfl
  have houtput : Sources.load Stimuli.tool Stimuli.Config.ofSettings? ⟨[[("output", .text "g")]], [], []⟩ =
      .ok { output := "g" } := rfl
  have hrange : Sources.load Stimuli.tool Stimuli.Config.ofSettings? ⟨[], [("range", .int 5)], []⟩ =
      .ok { range := some 5 } := rfl
  have hsize : Sources.load Stimuli.tool Stimuli.Config.ofSettings? ⟨[], [], [("size", .int 3)]⟩ =
      .ok { size := 3 } := rfl
  have hnone : Sources.load Stimuli.tool Stimuli.Config.ofSettings? ⟨[], [], []⟩ = .ok {} := rfl
  let inF : Fields := [("output", .text "f"), ("size", .text "many"), ("verify", .bool true)]
  let inG : Fields := [("output", .text "g"), ("range", .int (-1))]
  have hargs : Arguments.read Stimuli.tool.options true ["-c", "g", "--size", "3"] =
      .ok ⟨[("size", .int 3)], ["g"]⟩ := by cbv
  have hpaths : env.Lists "STIMULI_CONFIG" ["f"] := Environment.lists_iff.mpr (by decide)
  have henv : env.settings "STIMULI" = [("config", .text "f"), ("range", .int 5)] := rfl
  have hF : Toml.read "output = \"f\"\nsize = \"many\"\nverify = true\n".toList = some inF.entries :=
    Toml.read_write (by decide) (by decide) (by cbv)
  have hG : Toml.read "output = \"g\"\nrange = -1\n".toList = some inG.entries :=
    Toml.read_write (by decide) (by decide) (by cbv)
  have hlisted : Reads files "f" inF.entries := ⟨"/f", ["f"], _, by cbv, rfl, rfl, hF⟩
  have hnamed : Reads files "g" inG.entries := ⟨"/g", ["g"], _, by cbv, rfl, rfl, hG⟩
  have hplain : ∀ k ∈ Stimuli.tool.settingNames,
      ∀ es ∈ [inF.entries, inG.entries, env.settings "STIMULI"], Entries.Plainly k es := by
    rw [henv]
    intro k _ es hes
    refine Entries.plainly_of_names (fun e he => ?_) k
    have hall : ∀ es ∈ [inF.entries, inG.entries, [("config", .text "f"), ("range", .int 5)]], ∀ e ∈ es,
        KeyPath.ofName e.1 = [.key e.1] ∧ e.2.isTable = false := by decide
    exact hall es hes e he
  obtain ⟨hloads, unset, hunset, hfields⟩ := load_option_by_option (Program.Known.stimuliGen (Vector.replicate 8 0))
    hargs hpaths (.cons hlisted .nil) (.cons hnamed .nil) hplain
  obtain ⟨c, hc⟩ := hloads.mpr fun k hk => by
    simp only [stimuliGen, Stimuli.settingNames_tool, List.mem_cons, List.not_mem_nil, or_false] at hk
    rcases hk with rfl | rfl | rfl | rfl | rfl | rfl | rfl
    exacts [⟨_, houtput⟩, ⟨_, hnone⟩, ⟨_, hverify⟩, ⟨_, hsize⟩, ⟨_, hrange⟩, ⟨_, hnone⟩, ⟨_, hnone⟩]
  exact ⟨c, hc, (hfields c hc "verify" (by decide)).1 _ hverify, (hfields c hc "output" (by decide)).1 _ houtput,
    (hfields c hc "range" (by decide)).1 _ hrange, (hfields c hc "size" (by decide)).1 _ hsize,
    (hfields c hc "section" (by decide)).1 _ hnone, (hfields c hc "seed" (by decide)).1 _ hnone⟩

end CoreBench
