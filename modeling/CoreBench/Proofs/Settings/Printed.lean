import CoreBench.Proofs.Settings.Precedence

/-!
Configurations that are printed can be loaded. What a program shows of a configuration as a document is, in a
configuration file, all that it takes to get the configuration back.

What is proved:
  * `Fieldwise.load_entries`: what is shown of a configuration, as the one source, is loaded as the configuration;
  * `Trace.shown`, `Stimuli.shown`: each tool reads back every field that it shows;
  * `load_rendered`: printing fails for numbers of more than 63 bits only, and what is printed can be loaded.
-/

namespace CoreBench

open CoreBench.Files CoreBench.Text

namespace Settings

open Entries

/-! ## Fields as a source -/

theorem lookup_entries (fs : Fields) (k : String) :
    fs.entries.lookup k = (fs.lookup k).map Plain.value := by
  induction fs with
  | nil => rfl
  | cons f fs ih =>
    rw [Fields.entries, List.map_cons, List.lookup_cons, List.lookup_cons]
    split
    · rfl
    · exact ih

/-- Among names that differ, the first setting of a name is the last one. -/
theorem last?_eq_lookup {es : Entries} (h : (es.map Prod.fst).Nodup) (k : String) :
    es.last? k = es.lookup k := by
  induction es with
  | nil => rfl
  | cons e es ih =>
    obtain ⟨hnot, hnodup⟩ := List.nodup_cons.mp h
    rw [last?_cons, List.lookup_cons]
    by_cases hk : e.1 = k
    · have hnone : last? k es = none := last?_eq_none_iff.mpr fun f hf hkf =>
        hnot (List.mem_map.mpr ⟨f, hf, (hk.trans hkf).symm⟩)
      rw [hnone, if_pos hk, hk, BEq.rfl]
      rfl
    · rw [if_neg hk, beq_false_of_ne (Ne.symm hk), Option.or_none]
      exact ih hnodup

theorem Plain.isTable_value (v : Plain) : v.value.isTable = false := by
  cases v <;> rfl

/-- Whether a tool reads back each field that it shows of a configuration. -/
structure Shown {γ : Type} {tool : Tool} {decode : Value → Option γ} {fields : γ → Fields}
    (F : Fieldwise tool decode fields) (c : γ) : Prop where
  names : ∀ f ∈ fields c, f.1 ∈ tool.settingNames
  nodup : ((fields c).map Prod.fst).Nodup
  part_value : ∀ k ∈ tool.settingNames,
    F.part k (((fields c).lookup k).map Plain.value) = some ((fields c).lookup k)

/-- **What is shown can be loaded**: with the fields of a configuration as its one source, a tool loads the
configuration. -/
theorem Fieldwise.load_entries {γ : Type} {tool : Tool} {decode : Value → Option γ}
    {fields : γ → Fields} (F : Fieldwise tool decode fields) {c : γ} (h : Shown F c) :
    Sources.load tool decode ⟨[(fields c).entries], [], []⟩ = .ok c := by
  let s : Sources := ⟨[(fields c).entries], [], []⟩
  have hflat : s.all.flatten = (fields c).entries := by simp [s, Sources.all]
  have hplain : ∀ k, Plainly k s.all.flatten := fun k => by
    rw [hflat]
    refine plainly_of_names (fun e he => ?_) k
    obtain ⟨f, hf, rfl⟩ := List.mem_map.mp he
    exact ⟨F.ofName_eq f.1 (h.names f hf), Plain.isTable_value f.2⟩
  have hlookup : ∀ k ∈ tool.settingNames,
      (Value.ofSources s.all).entries.lookup k = ((fields c).lookup k).map Plain.value := by
    intro k hk
    have hnodup : ((fields c).entries.map Prod.fst).Nodup := by
      rw [Fields.entries, List.map_map]
      exact h.nodup
    rw [F.lookup_all hk (hplain k), hflat, last?_eq_lookup hnodup, lookup_entries]
  obtain ⟨d, hd⟩ := F.decode_of_part (v := Value.ofSources s.all) fun k hk => by
    rw [hlookup k hk, h.part_value k hk]
    rfl
  -- What is loaded shows the same fields, so it is the same configuration.
  have hcd : d = c := F.ext fun k hk => by
    have hpart := F.part_of_decode hd k hk
    rw [hlookup k hk, h.part_value k hk] at hpart
    exact (Option.some.inj hpart).symm
  rw [hcd] at hd
  exact Sources.load_eq_ok_iff.mpr ⟨fun e he => absurd he List.not_mem_nil, hd⟩

/-! ## Variables -/

theorem lower_append (s t : String) : Value.lower (s ++ t) = Value.lower s ++ Value.lower t := by
  simp [Value.lower]

/-- The variable that lists files has the name of one of the tool's settings. -/
theorem settingName?_listVariable (t : Tool) :
    settingName? t.variableStem t.listVariable = some "config" := by
  have hlower : (Value.lower t.listVariable).toList =
      (Value.lower t.variableStem ++ "_").toList ++ "config".toList := by
    rw [Tool.listVariable, lower_append, ← String.toList_append, String.append_assoc]
    rfl
  rw [settingName?, hlower, after?_append]
  rfl

namespace Environment

variable {env : Environment} {x : String}

theorem lookup_eq_none (h : ∀ v ∈ env, v.1 ≠ x) : env.lookup x = none := by
  rw [List.lookup_eq_none_iff]
  intro v hv
  exact bne_iff_ne.mpr (h v hv).symm

theorem files_eq_nil (h : ∀ v ∈ env, v.1 ≠ x) : env.files x = [] := by
  rw [files, lookup_eq_none h]

end Environment

/-- Without variables of a tool, an environment lists no files and sets nothing. -/
theorem settings_of_no_variables {t : Tool} {env : Environment}
    (h : ∀ v ∈ env, settingName? t.variableStem v.1 = none) :
    env.settings t.variableStem = [] ∧ env.files t.listVariable = [] := by
  constructor
  · rw [Environment.settings, List.filterMap_eq_nil_iff]
    intro v hv
    rw [h v hv]
    rfl
  · apply Environment.files_eq_nil
    intro v hv heq
    have hname := settingName?_listVariable t
    rw [← heq, h v hv] at hname
    cases hname

end Settings

open Settings

/-! ## The trace counter -/

namespace Trace

theorem Format.lookup_name (f : Format) : Format.named.lookup f.name = some f := by
  cases f <;> rfl

/-- The trace counter reads back what it shows. -/
theorem shown (c : Config) : Shown fieldwise c where
  names := by simp [Config.fields, settingNames_tool]
  nodup := by simp [Config.fields]
  part_value := by
    simp [settingNames_tool, fieldwise, Config.parts, Config.fields, List.lookup_cons, part, Plain.value,
      Value.toText?, Value.toChoice?, Value.toBool?, Format.lookup_name]

end Trace

/-! ## The stimuli generator -/

namespace Stimuli

theorem toNat64?_ofNat {n : Nat} (h : n ≤ max64) : (Plain.ofNat n).value.toNat64? = some n :=
  if_pos h

theorem toNat32?_ofNat {n : Nat} (h : n ≤ max32) : (Plain.ofNat n).value.toNat32? = some n := by
  have hmax : max32 ≤ max64 := by decide
  rw [Value.toNat32?, toNat64?_ofNat (Nat.le_trans h hmax), Option.map_some,
    Nat.mod_eq_of_lt (Nat.lt_succ_of_le h)]

/-- The numbers of a configuration are as long as their types have them. -/
structure Config.Sized (c : Config) : Prop where
  size : c.size ≤ max64
  range : ∀ n, c.range = some n → n ≤ max32
  seed : ∀ n, c.seed = some n → n ≤ max64

/-- A number that may be left out is read back, if it is there. -/
theorem part_number {read : Value → Option Nat} {r : Option Nat}
    (h : ∀ n, r = some n → read (Plain.ofNat n).value = some n) :
    part (fun w => (read w).map some) none (Option.map Plain.ofNat)
      ((r.map Plain.ofNat).map Plain.value) = some (r.map Plain.ofNat) := by
  cases r with
  | none => rfl
  | some n => simp only [Option.map_some, part, h n rfl]

theorem Config.mem_numberField {name : String} {r : Option Nat} {f : String × Plain} :
    f ∈ numberField name r ↔ ∃ n, r = some n ∧ f = (name, .ofNat n) := by
  cases r with
  | none => simp [numberField]
  | some n => simp [numberField]

theorem Config.mem_fields {c : Config} {f : String × Plain} :
    f ∈ c.fields ↔ f = ("output", .text c.output) ∨ f = ("size", .ofNat c.size) ∨
      (∃ n, c.range = some n ∧ f = ("range", .ofNat n)) ∨
      (∃ n, c.seed = some n ∧ f = ("seed", .ofNat n)) ∨ f = ("section", .text c.sect) ∨
      f = ("verify", .bool c.verify) ∨ f = ("print_config", .bool c.printConfig) := by
  simp [fields, mem_numberField]

/-- The stimuli generator reads back what it shows. -/
theorem shown {c : Config} (h : c.Sized) : Shown fieldwise c where
  names f hf := by
    rw [settingNames_tool]
    rcases Config.mem_fields.mp hf with rfl | rfl | ⟨n, -, rfl⟩ | ⟨n, -, rfl⟩ | rfl | rfl | rfl <;> simp
  nodup := by
    obtain ⟨o, n, r, s, t, b, p⟩ := c
    cases r <;> cases s <;> simp [Config.fields, Config.numberField]
  part_value := by
    have hsize : part Value.toNat64? ({} : Config).size (fun n => some (.ofNat n))
        (some (Plain.ofNat c.size).value) = some (some (.ofNat c.size)) := by
      rw [part, toNat64?_ofNat h.size]
      rfl
    simp only [settingNames_tool, fieldwise, Config.parts, Config.lookup_fields, List.lookup_cons,
      List.forall_mem_cons, BEq.rfl, String.reduceBEq, Option.getD_some, Option.map_some]
    exact ⟨rfl, rfl, rfl, hsize, part_number fun n hn => toNat32?_ofNat (h.range n hn),
      part_number fun n hn => toNat64?_ofNat (h.seed n hn), rfl, fun k hk => absurd hk List.not_mem_nil⟩

end Stimuli

/-! ## Both programs -/

namespace Toml

theorem write?_eq_none_iff {fs : Fields} : write? fs = none ↔ ∃ f ∈ fs, notation? f.2 = none := by
  induction fs with
  | nil => simp [write?]
  | cons f fs ih =>
    obtain ⟨k, v⟩ := f
    rw [List.exists_mem_cons_iff, ← ih, write?]
    cases notation? v with
    | none => simp
    | some w =>
      cases write? fs with
      | none => simp
      | some more => simp

/-- Only integers can be without a notation: those of more than 63 bits. -/
theorem notation?_eq_none_iff {v : Plain} :
    notation? v = none ↔ ∃ i, v = .int i ∧ ¬ (-(maxInt64 + 1) ≤ i ∧ i ≤ maxInt64) := by
  cases v with
  | bool b => simp [notation?]
  | int i => simp [notation?]
  | text s => simp [notation?]

end Toml

theorem renderConfig_error_iff {fs : Fields} :
    (∃ e, renderConfig fs = .error e) ↔ Toml.write? fs = none := by
  unfold renderConfig
  cases Toml.write? fs <;> simp

theorem write?_of_renderConfig {fs : Fields} {t : String} (h : renderConfig fs = .ok t) :
    Toml.write? fs = some t.toList := by
  unfold renderConfig at h
  split at h
  · cases h
  · next s hs =>
    cases h
    rw [hs, String.toList_ofList]

/-- A number has no notation exactly if it has more than 63 bits. -/
theorem notation?_ofNat {n : Nat} : Toml.notation? (.ofNat n) = none ↔ maxInt64 < n := by
  rw [Toml.notation?_eq_none_iff]
  constructor
  · rintro ⟨i, hi, hbounds⟩
    obtain rfl : (n : Int) = i := Plain.int.inj hi
    omega
  · intro hn
    exact ⟨n, rfl, by omega⟩

/-- Whether the size or the seed among the fields is a number of more than 63 bits. -/
def Settings.Fields.TooLarge (fs : Fields) : Prop :=
  ∃ k ∈ ["size", "seed"], ∃ n, fs.lookup k = some (.ofNat n) ∧ maxInt64 < n

/-! ## What the trace counter shows -/

namespace Trace

theorem write?_ne_none (c : Config) : Toml.write? c.fields ≠ none := by
  intro h
  obtain ⟨f, hf, hnone⟩ := Toml.write?_eq_none_iff.mp h
  obtain ⟨i, hi, -⟩ := Toml.notation?_eq_none_iff.mp hnone
  simp only [Config.fields, List.mem_cons, List.not_mem_nil, or_false] at hf
  rcases hf with rfl | rfl | rfl <;> cases hi

theorem not_tooLarge (c : Config) : ¬ c.fields.TooLarge := by
  rintro ⟨k, hk, n, hn, -⟩
  simp only [List.mem_cons, List.not_mem_nil, or_false] at hk
  rcases hk with rfl | rfl <;> simp [Config.fields, List.lookup_cons] at hn

end Trace

/-! ## What the stimuli generator shows -/

namespace Stimuli

theorem tooLarge_iff {c : Config} :
    c.fields.TooLarge ↔ maxInt64 < c.size ∨ ∃ n, c.seed = some n ∧ maxInt64 < n := by
  obtain ⟨-, hsize, -, hseed, -, -, -⟩ := Config.lookup_fields c
  constructor
  · rintro ⟨k, hk, n, hn, hlt⟩
    simp only [List.mem_cons, List.not_mem_nil, or_false] at hk
    rcases hk with rfl | rfl
    · rw [hsize, Option.some.injEq, Plain.ofNat_inj] at hn
      exact Or.inl (hn ▸ hlt)
    · rw [hseed] at hn
      obtain ⟨m, hm, hmn⟩ := Option.map_eq_some_iff.mp hn
      rw [Plain.ofNat_inj] at hmn
      exact Or.inr ⟨m, hm, hmn ▸ hlt⟩
  · rintro (hlt | ⟨n, hn, hlt⟩)
    · exact ⟨"size", by simp, c.size, hsize, hlt⟩
    · exact ⟨"seed", by simp, n, by rw [hseed, hn]; rfl, hlt⟩

theorem write?_eq_none_iff {c : Config} (hrange : ∀ n, c.range = some n → n ≤ max32) :
    Toml.write? c.fields = none ↔ c.fields.TooLarge := by
  rw [Toml.write?_eq_none_iff, tooLarge_iff]
  constructor
  · rintro ⟨f, hf, hnone⟩
    rcases Config.mem_fields.mp hf with rfl | rfl | ⟨n, hn, rfl⟩ | ⟨n, hn, rfl⟩ | rfl | rfl | rfl
    · cases hnone
    · exact Or.inl (notation?_ofNat.mp hnone)
    · -- A range has too few bits for this.
      have hlt : maxInt64 < n := notation?_ofNat.mp hnone
      have hle := hrange n hn
      have : max32 ≤ maxInt64 := by decide
      omega
    · exact Or.inr ⟨n, hn, notation?_ofNat.mp hnone⟩
    · cases hnone
    · cases hnone
    · cases hnone
  · rintro (hsize | ⟨n, hn, hlt⟩)
    · exact ⟨_, Config.mem_fields.mpr (Or.inr (Or.inl rfl)), notation?_ofNat.mpr hsize⟩
    · exact ⟨_, Config.mem_fields.mpr (Or.inr (Or.inr (Or.inr (Or.inl ⟨n, hn, rfl⟩)))),
        notation?_ofNat.mpr hlt⟩

theorem sized_of_not_tooLarge {c : Config} (hrange : ∀ n, c.range = some n → n ≤ max32)
    (h : ¬ c.fields.TooLarge) : c.Sized := by
  rw [tooLarge_iff, not_or] at h
  have hmax : maxInt64 ≤ max64 := by decide
  refine ⟨by omega, hrange, fun n hn => ?_⟩
  have hle : ¬ maxInt64 < n := fun hlt => h.2 ⟨n, hn, hlt⟩
  omega

end Stimuli

/-! ## Printing and loading -/

/-- What the two programs show of a configuration has names that can stand for themselves, is written unless the
size or the seed is too large, and is then read back. -/
theorem Program.Known.shown {γ : Type} {p : Program γ} (hp : p.Known) {c : γ}
    (hrange : ∀ n, (p.fields c).lookup "range" = some (.ofNat n) → n ≤ max32) :
    (∀ k ∈ p.tool.settingNames, Toml.isBareKey k = true) ∧
    (Toml.write? (p.fields c) = none ↔ (p.fields c).TooLarge) ∧
    (¬ (p.fields c).TooLarge → ∃ F : Fieldwise p.tool p.decode p.fields, Shown F c) := by
  cases hp with
  | traceStats =>
    exact ⟨by decide, iff_of_false (Trace.write?_ne_none c) (Trace.not_tooLarge c),
      fun _ => ⟨Trace.fieldwise, Trace.shown c⟩⟩
  | stimuliGen entropy =>
    have hbits : ∀ n, c.range = some n → n ≤ max32 := fun n hn =>
      hrange n ((Stimuli.Config.lookup_fields c).2.2.1.trans (by rw [hn]; rfl))
    have hbare : ∀ k ∈ Stimuli.tool.settingNames, Toml.isBareKey k = true := by decide
    exact ⟨hbare, Stimuli.write?_eq_none_iff hbits, fun h =>
      ⟨Stimuli.fieldwise, Stimuli.shown (Stimuli.sized_of_not_tooLarge hbits h)⟩⟩

/-- **A printed configuration is one that can be loaded.** Let the range of a configuration, if it has one, be a
number of 32 bits, as its type has it. Printing it fails exactly if its size or its seed has more than 63 bits.
Otherwise what is printed, in the one configuration file that is named on the command line, with nothing else said
there and no variables of the tool in the environment, is loaded as the configuration itself. -/
theorem load_rendered {γ : Type} {p : Program γ} (hp : p.Known) {c : γ}
    (hrange : ∀ n, (p.fields c).lookup "range" = some (.ofNat n) → n ≤ max32) :
    ((∃ e, renderConfig (p.fields c) = .error e) ↔ (p.fields c).TooLarge) ∧
    ∀ t, renderConfig (p.fields c) = .ok t →
      ∀ (versioned : Bool) (files : Tree) (env : Environment) (args : List String) (path full : String)
        (place : Place),
        Arguments.read p.tool.options versioned args = .ok ⟨[], [path]⟩ →
        (∀ v ∈ env, settingName? p.tool.variableStem v.1 = none) →
        configFile? files path = some full → files.locate full = .ok place →
        files.node? place = some (.file (octets t)) →
        load p.tool p.decode versioned files env args = .ok c := by
  obtain ⟨hbare, hfails, hshown⟩ := hp.shown hrange
  refine ⟨renderConfig_error_iff.trans hfails, ?_⟩
  intro t ht versioned files env args path full place hargs henv hpath hplace hfile
  have hw := write?_of_renderConfig ht
  obtain ⟨F, hF⟩ := hshown fun hlarge => by
    rw [hfails.mpr hlarge] at hw
    cases hw
  -- The file gives the fields back, and no other source gives anything.
  obtain ⟨hsettings, hlisted⟩ := settings_of_no_variables henv
  have hread : readFile? files path = some (p.fields c).entries := by
    have htoml : Toml.read t.toList = some (p.fields c).entries :=
      Toml.read_write (fun f hf => hbare f.1 (hF.names f hf)) hF.nodup hw
    rw [readFile?_of_octets hpath hplace hfile, htoml]
  have hfiles : (configPaths p.tool env ⟨[], [path]⟩).mapM (readFile? files) =
      some [(p.fields c).entries] := by
    rw [configPaths, hlisted, List.nil_append, List.mapM_cons, hread]
    rfl
  calc load p.tool p.decode versioned files env args
      = Sources.load p.tool p.decode
          ⟨[(p.fields c).entries], env.settings p.tool.variableStem, []⟩ := load_eq_sources hargs hfiles
    _ = Sources.load p.tool p.decode ⟨[(p.fields c).entries], [], []⟩ := by rw [hsettings]
    _ = .ok c := F.load_entries hF

/-- Texts of marks, backslashes and a newline, and numbers, in a file that the command line names. -/
theorem load_rendered_marks :
    let c : Stimuli.Config :=
      { output := "\n'''\\\"\"", size := 8, range := some 3, seed := some 9, sect := "'\"" }
    ∃ t, renderConfig c.fields = .ok t ∧
      load Stimuli.tool Stimuli.Config.ofSettings? true ⟨[(["a"], .file (octets t))], []⟩ []
        ["-c", "a"] = .ok c := by
  intro c
  have hrange : ∀ n, c.fields.lookup "range" = some (.ofNat n) → n ≤ max32 := fun n h => by
    rw [(Stimuli.Config.lookup_fields c).2.2.1] at h
    obtain rfl : 3 = n := Plain.ofNat_inj.mp (Option.some.inj h)
    decide
  have hsmall : ¬ c.fields.TooLarge := by
    rw [Stimuli.tooLarge_iff]
    rintro (h | ⟨n, hn, h⟩)
    · exact absurd h (by decide)
    · obtain rfl : 9 = n := Option.some.inj hn
      exact absurd h (by decide)
  obtain ⟨hfails, hloads⟩ :=
    load_rendered (Program.Known.stimuliGen (Vector.replicate 8 0)) (c := c) hrange
  cases ht : renderConfig c.fields with
  | error e => exact absurd (hfails.mp ⟨e, ht⟩) hsmall
  | ok t =>
    have hpath : ∀ b, configFile? ⟨[(["a"], .file b)], []⟩ "a" = some "/a" := fun b => by cbv
    exact ⟨t, rfl, hloads t ht true _ [] ["-c", "a"] "a" "/a" ["a"] rfl
      (fun v hv => absurd hv List.not_mem_nil) (hpath _) rfl rfl⟩

end CoreBench
