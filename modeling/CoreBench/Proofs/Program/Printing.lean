import CoreBench.Proofs.Files.Growth
import CoreBench.Proofs.Program.Ending
import CoreBench.Proofs.Settings.Printed
import CoreBench.Proofs.Settings.Switch
import CoreBench.Proofs.Text.Decimal

/-!
Showing the configuration. The switch for it changes nothing of what a program does, unless the configuration cannot be
shown: a seed or a size beyond 63 bits has no notation in the document, and then the process fails ahead of its work.
No command line gives such a seed, and no valid parameters have such a size; but a variable can give such a seed, and
without the switch the run goes well.

What is proved:
  * `Prints.takes_front_iff`: ahead of all else, the switch is taken by every line that is read and does not have it;
  * `Prints.load`: with the switch, what is loaded is the same but for the switch, and `Trace.prints` and
    `Stimuli.prints` say so of the two tools;
  * `Stimuli.renders_iff`: which configurations of the stimuli generator can be shown;
  * `printing_observes`: what the switch changes, for both programs and all lines, environments and files;
  * `printing_fails`: a seed that the switch makes fatal.
-/

namespace CoreBench

open CoreBench.Files CoreBench.Log CoreBench.Random CoreBench.Settings CoreBench.Text Step

/-! ## Command lines with the switch -/

/-- The switch can be put between two parts of a command line. -/
def TakesPrinting (tool : Tool) (pre post : List String) : Prop :=
  ∃ given, Arguments.read tool.options true (pre ++ "--print-config" :: post) = .ok given

/-- The option that shows the configuration. -/
def printOption : Opt := ⟨"print-config", none, .switch "print_config"⟩

/-- A tool with the switch, which reads it from its setting. `on` is what it does to a configuration. -/
structure Prints {γ : Type} (tool : Tool) (decode : Value → Option γ) (on : γ → γ) : Prop where
  among : Arguments.SwitchAmong printOption "print_config" (tool.options ++ [.help, .version])
  names : ∀ k ∈ tool.settingNames, KeyPath.ofName k = [.key k]
  decode_on : ∀ {v w : Value} {c : γ}, (∀ k ∈ tool.settingNames,
    w.entries.lookup k = if k = "print_config" then some (.bool true) else v.entries.lookup k) →
    decode v = some c → decode w = some (on c)

namespace Prints

variable {γ : Type} {tool : Tool} {decode : Value → Option γ} {on : γ → γ} {pre post : List String}

/-- At the front, the switch is taken by every line that is read and does not have it. -/
theorem takes_front_iff (P : Prints tool decode on) (args : List String) :
    TakesPrinting tool [] args ↔
      ∃ given, Arguments.read tool.options true args = .ok given ∧ given.has "print_config" = false :=
  Arguments.readFrom_front P.among

theorem load (P : Prints tool decode on) (htakes : TakesPrinting tool pre post) {files : Tree} {env : Environment}
    {c : γ} (hload : load tool decode true files env (pre ++ post) = .ok c) :
    Settings.load tool decode true files env (pre ++ "--print-config" :: post) = .ok (on c) := by
  obtain ⟨b, hb⟩ := htakes
  obtain ⟨a, hread, hswitched⟩ := Arguments.readFrom_inserted P.among hb
  have ha : Arguments.read tool.options true (pre ++ post) = .ok a := hread
  exact load_switched P.names P.decode_on ha hb hswitched hload

end Prints

/-- The configuration with the switch on. -/
def Trace.Config.printing (c : Trace.Config) : Trace.Config :=
  { c with printConfig := true }

/-- The configuration with the switch on. -/
def Stimuli.Config.printing (c : Stimuli.Config) : Stimuli.Config :=
  { c with printConfig := true }

theorem Trace.prints : Prints tool Config.ofSettings? Config.printing where
  among := ⟨rfl, rfl, by decide⟩
  names := fieldwise.ofName_eq
  decode_on {v w c} h hc := by
    obtain ⟨hi, hf, -⟩ := Config.ofSettings?_eq_some_iff.mp hc
    simp only [settingNames_tool, List.forall_mem_cons] at h
    obtain ⟨hi', hf', hp', -⟩ := h
    refine Config.ofSettings?_eq_some_iff.mpr ⟨?_, ?_, ?_⟩
    · rwa [Value.setting, hi']
    · rwa [Value.setting, hf']
    · rw [Value.setting, hp']
      rfl

theorem Stimuli.prints : Prints tool Config.ofSettings? Config.printing where
  among := ⟨rfl, rfl, by decide⟩
  names := fieldwise.ofName_eq
  decode_on {v w c} h hc := by
    obtain ⟨ho, hn, hr, hs, ht, hb, -⟩ := Config.ofSettings?_eq_some_iff.mp hc
    simp only [settingNames_tool, List.forall_mem_cons] at h
    obtain ⟨ho', ht', hb', hn', hr', hs', hp', -⟩ := h
    refine Config.ofSettings?_eq_some_iff.mpr ⟨?_, ?_, ?_, ?_, ?_, ?_, ?_⟩
    · rwa [Value.setting, ho']
    · rwa [Value.setting, hn']
    · rwa [Value.setting, hr']
    · rwa [Value.setting, hs']
    · rwa [Value.setting, ht']
    · rwa [Value.setting, hb']
    · rw [Value.setting, hp']
      rfl

/-! ## What can be shown -/

namespace Stimuli

/-- A range that is loaded has 32 bits. -/
theorem range_le_of_load {files : Tree} {env : Environment} {args : List String} {c : Config}
    (hload : load tool Config.ofSettings? true files env args = .ok c) {n : Nat} (hn : c.range = some n) :
    n ≤ max32 := by
  obtain ⟨given, v, -, -, hdecode⟩ := load_eq_ok_iff.mp hload
  obtain ⟨-, -, hrange, -⟩ := Config.ofSettings?_eq_some_iff.mp hdecode
  rw [hn, Value.setting] at hrange
  split at hrange
  · cases hrange
  · next w _ =>
    simp only [Option.map_eq_some_iff, Option.some.injEq, Value.toNat32?] at hrange
    obtain ⟨m, ⟨r, -, rfl⟩, rfl⟩ := hrange
    exact Nat.le_of_lt_succ (Nat.mod_lt r (Nat.succ_pos max32))

/-- What can be shown are sizes and seeds of 63 bits. -/
theorem renders_iff {c : Config} (hrange : ∀ n, c.range = some n → n ≤ max32) :
    (∃ s, renderConfig c.fields = .ok s) ↔ c.size ≤ maxInt64 ∧ ∀ n, c.seed = some n → n ≤ maxInt64 := by
  have hfails : (∃ e, renderConfig c.fields = .error e) ↔
      maxInt64 < c.size ∨ ∃ n, c.seed = some n ∧ maxInt64 < n :=
    renderConfig_error_iff.trans ((write?_eq_none_iff hrange).trans tooLarge_iff)
  have hsmall : (c.size ≤ maxInt64 ∧ ∀ n, c.seed = some n → n ≤ maxInt64) ↔
      ¬ (maxInt64 < c.size ∨ ∃ n, c.seed = some n ∧ maxInt64 < n) := by
    simp only [not_or, not_exists, not_and, Nat.not_lt]
  rw [hsmall, ← hfails]
  cases renderConfig c.fields with
  | error e => exact ⟨nofun, fun h => absurd ⟨e, rfl⟩ h⟩
  | ok s => exact ⟨fun _ => nofun, fun _ => ⟨s, rfl⟩⟩

theorem renders_iff_of_seed {c : Config} {seed : Nat} (hrange : ∀ n, c.range = some n → n ≤ max32)
    (hseed : c.seed = some seed) :
    (∃ s, renderConfig c.fields = .ok s) ↔ c.size ≤ maxInt64 ∧ seed ≤ maxInt64 := by
  rw [renders_iff hrange, hseed]
  simp only [Option.some.injEq, forall_eq']

theorem size_params (c : Config) : c.params.size = c.size := by
  rw [Config.params]
  cases c.range <;> rfl

/-- A size that is not refused has 63 bits. -/
theorem size_le_of_validate {c : Config} (h : c.params.validate = .ok ()) : c.size ≤ maxInt64 := by
  have hmax := (Params.validate_eq_ok.mp h).2.1
  rw [size_params] at hmax
  exact Nat.le_trans hmax (by decide)

/-- A seed on the command line has 63 bits. -/
theorem seed_le_of_given {files : Tree} {env : Environment} {args : List String} {c : Config} {given : Arguments}
    (hload : load tool Config.ofSettings? true files env args = .ok c)
    (hread : Arguments.read tool.options true args = .ok given) (hhas : given.has "seed" = true) :
    ∃ n, c.seed = some n ∧ n ≤ maxInt64 := by
  obtain ⟨v, w, hdecode, hlookup, hmem⟩ :=
    load_given_stands fieldwise.ofName_eq hread (by decide) hhas hload
  obtain ⟨-, -, -, hseed, -⟩ := Config.ofSettings?_eq_some_iff.mp hdecode
  rw [Value.setting, hlookup] at hseed
  -- Of the options, only one gives this setting, and it reads a number up to its bound.
  have hkind : ∃ s, (Kind.natural maxInt64).read s = .ok w := by
    obtain ⟨o, ho, hgives⟩ := Arguments.read_comes hread _ hmem
    simp only [tool, List.mem_cons, List.not_mem_nil, or_false] at ho
    rcases ho with rfl | rfl | rfl | rfl | rfl | rfl | rfl | rfl <;> simp [Purpose.Gives] at hgives
    exact hgives
  obtain ⟨s, hs⟩ := hkind
  obtain ⟨n, rfl, hn⟩ := Kind.read_natural hs
  have hle : n ≤ maxInt64 := (readNat_eq_ok_iff.mp hn).2
  have hmax : maxInt64 ≤ max64 := by decide
  refine ⟨n, ?_, hle⟩
  have hnat : (Value.int n).toNat64? = some n := if_pos (Nat.le_trans hle hmax)
  simp only [hnat, Option.map_some, Option.some.injEq] at hseed
  exact hseed.symm

end Stimuli

theorem Trace.renders (c : Config) : ∃ s, renderConfig c.fields = .ok s :=
  (Program.renderConfig_cases c.fields).resolve_right fun h =>
    write?_ne_none c (renderConfig_error_iff.mp ⟨_, h⟩)

/-! ## What the switch changes -/

/-- What is seen of two processes is the same. -/
structure Outcome.Alike (o o' : Outcome) : Prop where
  code : o'.ending.code = o.ending.code
  stdout : o'.ending.stdout = o.ending.stdout
  files : o'.files = o.files

open Program

/-- Two configurations that can be shown, as far as they ask for it, and that mean the same work. -/
theorem process_alike [Dialect] {γ : Type} {p p' : Program γ} {files : Tree} {env : Environment}
    {args args' : List String} {c c' : γ} (hact : Oblivious (p.act c)) (hsame : p'.act c' = p.act c)
    (hload : load p.tool p.decode true files env args = .ok c) (hshows : p.Shows c)
    (hload' : load p'.tool p'.decode true files env args' = .ok c') (hshows' : p'.Shows c') :
    Outcome.Alike (p.process files env args) (p'.process files env args') := by
  obtain ⟨hending, hfiles⟩ := process_of_shows hact hload hshows
  obtain ⟨hending', hfiles'⟩ := process_of_shows (hsame ▸ hact) hload' hshows'
  rw [hsame] at hending' hfiles'
  have hsame : (p'.process files env args').ending = (p.process files env args).ending :=
    hending'.trans hending.symm
  exact ⟨congrArg Ending.code hsame, congrArg Ending.stdout hsame, hfiles'.trans hfiles.symm⟩

/-- With a seed, the source of the other keys does not matter, and neither does the switch. -/
theorem stimuliGen_act_printing {c : Stimuli.Config} {seed : Nat} (hseed : c.seed = some seed)
    (entropy entropy' : Key) : (stimuliGen entropy').act c.printing = (stimuliGen entropy).act c := by
  have hstream : c.printing.keystream entropy' = c.keystream entropy := by
    simp only [Stimuli.Config.keystream, Stimuli.Config.printing, hseed]
  have hrun : Stimuli.run entropy' c.printing = Stimuli.run entropy c := by
    simp only [Stimuli.run, hstream]
    rfl
  show (do let _ ← Step.mapError _ (Stimuli.run entropy' c.printing); pure "") = _
  rw [hrun]
  rfl

/-- A process that has loaded its configuration fails with the exit code 1 if it fails. -/
theorem code_of_load [Dialect] {γ : Type} {p : Program γ} (hact : ∀ c, Oblivious (p.act c)) {files : Tree}
    {env : Environment} {args : List String} {c : γ} (hload : load p.tool p.decode true files env args = .ok c)
    (hcode : (p.process files env args).ending.code ≠ 0) : (p.process files env args).ending.code = 1 := by
  rcases process_cases hact files env args with ⟨e, he, -⟩ | ⟨c, -, -, hending, -⟩ | ⟨c, -, -, hending, -⟩
  · rw [hload] at he
    cases he
  · rw [hending]
    rfl
  · rw [hending] at hcode ⊢
    cases h : (outcome (p.act c) ⟨files, []⟩).1 with
    | error f => rfl
    | ok out =>
      rw [h] at hcode
      exact absurd rfl hcode

/-- A process is like one that fails and touches no file exactly if it does so itself. -/
theorem alike_failed_iff {o o' : Outcome} {f : Failure} {files : Tree} (hending : o'.ending = .failed f)
    (hfiles : o'.files = files) (hone : o.ending.code ≠ 0 → o.ending.code = 1) :
    Outcome.Alike o o' ↔ o.ending.code ≠ 0 ∧ o.files = files := by
  constructor
  · intro h
    refine ⟨?_, h.files.symm.trans hfiles⟩
    rw [← h.code, hending]
    exact Nat.succ_ne_zero 0
  · rintro ⟨hcode, hkept⟩
    refine ⟨?_, ?_, hfiles.trans hkept.symm⟩
    · rw [hone hcode, hending]
      rfl
    · rw [Ending.stdout_of_failed hcode, hending]
      rfl

/-- **Showing the configuration changes nothing, as far as it can be shown.** The trace counter can show all that it
loads. The stimuli generator, with a seed, can show what it loads exactly if size and seed have 63 bits; then the
switch changes neither the exit code nor the standard output nor the files. Otherwise the switch makes the process
fail ahead of its work, so it changes nothing exactly if without it the process fails too and touches no file. Valid
parameters leave the seed to decide, and a seed from the command line is never too large. -/
theorem printing_observes [Dialect] (files : Tree) (env : Environment) (pre post : List String) :
    (∀ c, load Trace.tool Trace.Config.ofSettings? true files env (pre ++ post) = .ok c →
      TakesPrinting Trace.tool pre post →
      (∃ s, renderConfig c.fields = .ok s) ∧
      Outcome.Alike (traceStats.process files env (pre ++ post))
        (traceStats.process files env (pre ++ "--print-config" :: post))) ∧
    ∀ c seed entropy entropy', load Stimuli.tool Stimuli.Config.ofSettings? true files env (pre ++ post) = .ok c →
      c.seed = some seed → TakesPrinting Stimuli.tool pre post →
      let o := (stimuliGen entropy).process files env (pre ++ post)
      let o' := (stimuliGen entropy').process files env (pre ++ "--print-config" :: post)
      ((∃ s, renderConfig c.fields = .ok s) ↔ c.size ≤ maxInt64 ∧ seed ≤ maxInt64) ∧
      (c.size ≤ maxInt64 ∧ seed ≤ maxInt64 → Outcome.Alike o o') ∧
      (¬ (c.size ≤ maxInt64 ∧ seed ≤ maxInt64) →
        o'.ending = .failed ⟨"failed to render config as toml", []⟩ ∧ o'.files = files ∧
        (Outcome.Alike o o' ↔ o.ending.code ≠ 0 ∧ o.files = files)) ∧
      (c.params.validate = .ok () → c.size ≤ maxInt64) ∧
      ∀ given, Arguments.read Stimuli.tool.options true (pre ++ post) = .ok given → given.has "seed" = true →
        seed ≤ maxInt64 := by
  constructor
  · intro c hload htakes
    have hsame : traceStats.act c.printing = traceStats.act c := rfl
    refine ⟨Trace.renders c, ?_⟩
    exact process_alike (traceStats_oblivious c) hsame hload (fun _ => Trace.renders c)
      (Trace.prints.load htakes hload) fun _ => Trace.renders c.printing
  · intro c seed entropy entropy' hload hseed htakes o o'
    have hload' := Stimuli.prints.load htakes hload
    have hrange : ∀ n, c.range = some n → n ≤ max32 := fun n hn => Stimuli.range_le_of_load hload hn
    have hrenders := Stimuli.renders_iff_of_seed hrange hseed
    have hrenders' := Stimuli.renders_iff_of_seed (c := c.printing) hrange hseed
    refine ⟨hrenders, fun hsmall => ?_, fun hlarge => ?_, Stimuli.size_le_of_validate, fun given hread hhas => ?_⟩
    · exact process_alike (stimuliGen_oblivious entropy c) (stimuliGen_act_printing hseed entropy entropy') hload
        (fun _ => hrenders.mpr hsmall) hload' fun _ => hrenders'.mpr hsmall
    · have hnot : ¬ (stimuliGen entropy').Shows c.printing := fun h => hlarge (hrenders'.mp (h rfl))
      obtain ⟨hending, hfiles⟩ := process_of_load (p := stimuliGen entropy') hload'
        (body_of_not_shows hnot ⟨files, []⟩)
      exact ⟨hending, hfiles, alike_failed_iff hending hfiles (code_of_load (stimuliGen_oblivious entropy) hload)⟩
    · obtain ⟨n, hn, hle⟩ := Stimuli.seed_le_of_given hload hread hhas
      rw [hseed] at hn
      exact Option.some.inj hn ▸ hle

/-- The switch between the other options of two lines, the second one with the largest seed of a command line. -/
theorem printing_observes_lines :
    let files := (Tree.withDevices ["work"]).put ["work", "t.log"] (.file [115, 119, 10])
    let entropy : Key := Vector.replicate 8 0
    let fresh : Key := Vector.replicate 8 1
    let seeded := ["--seed", "9223372036854775807"]
    (load Trace.tool Trace.Config.ofSettings? true files [] (["-i", "t.log"] ++ ["-f", "json"])
        = .ok { input := "t.log", format := .json } ∧
      TakesPrinting Trace.tool ["-i", "t.log"] ["-f", "json"]) ∧
    (load Stimuli.tool Stimuli.Config.ofSettings? true files [] (seeded ++ ["--size", "1"])
        = .ok { size := 1, seed := some 9223372036854775807 } ∧
      TakesPrinting Stimuli.tool seeded ["--size", "1"]) ∧
    Outcome.Alike (traceStats.process files [] ["-i", "t.log", "-f", "json"])
      (traceStats.process files [] ["-i", "t.log", "--print-config", "-f", "json"]) ∧
    Outcome.Alike ((stimuliGen entropy).process files [] (seeded ++ ["--size", "1"]))
      ((stimuliGen fresh).process files [] (seeded ++ "--print-config" :: ["--size", "1"])) := by
  intro files entropy fresh seeded
  have htrace : load Trace.tool Trace.Config.ofSettings? true files [] (["-i", "t.log"] ++ ["-f", "json"])
      = .ok { input := "t.log", format := .json } := rfl
  have hstimuli : load Stimuli.tool Stimuli.Config.ofSettings? true files [] (seeded ++ ["--size", "1"])
      = .ok { size := 1, seed := some 9223372036854775807 } := by decide +kernel
  have htakes : TakesPrinting Trace.tool ["-i", "t.log"] ["-f", "json"] := ⟨_, rfl⟩
  have htakes' : TakesPrinting Stimuli.tool seeded ["--size", "1"] := ⟨_, rfl⟩
  refine ⟨⟨htrace, htakes⟩, ⟨hstimuli, htakes'⟩, ?_, ?_⟩
  · exact ((printing_observes files [] ["-i", "t.log"] ["-f", "json"]).1 _ htrace htakes).2
  · have hobserves := (printing_observes files [] seeded ["--size", "1"]).2 _ _ entropy fresh hstimuli rfl htakes'
    exact hobserves.2.1 ⟨by decide, by decide⟩

/-- **A seed that the switch makes fatal.** A variable gives a seed of 64 bits, which the command line would refuse.
The run goes well and writes its header; with the switch it fails and writes nothing. -/
theorem printing_fails :
    let files := Tree.withDevices ["work"]
    let env : Environment := [("STIMULI_SEED", "9223372036854775808"), ("STIMULI_SIZE", "1")]
    let entropy : Key := Vector.replicate 8 0
    let place := ["work", "MatrixMul32_stimuli.h"]
    let o := (stimuliGen entropy).process files env []
    let o' := (stimuliGen entropy).process files env ["--print-config"]
    load Stimuli.tool Stimuli.Config.ofSettings? true files env []
        = .ok { size := 1, seed := some 9223372036854775808 } ∧
      TakesPrinting Stimuli.tool [] [] ∧
      (o.ending.code = 0 ∧ ∃ header, o.files.node? place = some (.file header)) ∧
      (o'.ending.code = 1 ∧ o'.files.node? place = none) ∧ ¬ Outcome.Alike o o' ∧
      Arguments.read Stimuli.tool.options true ["--seed", "9223372036854775808"] = .error .invalidNumber := by
  intro files env entropy place o o'
  have hload : load Stimuli.tool Stimuli.Config.ofSettings? true files env []
      = .ok { size := 1, seed := some 9223372036854775808 } := by decide +kernel
  have htakes : TakesPrinting Stimuli.tool [] [] := ⟨_, rfl⟩
  let c : Stimuli.Config := { size := 1, seed := some 9223372036854775808 }
  -- Without the switch, a case is drawn, and its header is written to a new file.
  have hvalid : c.params.validate = .ok () := by decide
  have hdraws : (Stimuli.drawPairs Keystream.next c.params.range #[] #[] (c.params.size * c.params.size)
      (c.keystream entropy)).1.isSome = true := by decide +kernel
  have hlocate : files.locateNew c.output = .ok place := by decide +kernel
  have hcreate : files.create c.output = .ok (files.put place (.file []), place) :=
    Tree.create_of_regular hlocate (.inl rfl)
  have hfile : (files.put place (.file [])).node? place = some (.file []) := rfl
  rcases Stimuli.generate_cases (p := c.params) fun _ => hdraws with ⟨e, hinvalid, -⟩ | ⟨-, case, hcase, -⟩
  · rw [hvalid] at hinvalid
    cases hinvalid
  obtain ⟨hending, hfiles⟩ := process_of_shows (stimuliGen_oblivious entropy c) hload nofun
  have hrun : Ends (Stimuli.run entropy c) ⟨files, []⟩ _ _ := Stimuli.run_ends hvalid hcase hcreate hfile
  have hact := stimuliGen_act entropy c ⟨files, []⟩
  rw [hrun.eq, hrun.files_eq] at hact
  rw [hact.eq] at hending
  rw [hact.files_eq] at hfiles
  -- With it, the configuration cannot be shown.
  have hnot : ¬ (stimuliGen entropy).Shows c.printing := fun h => by
    have hsmall := (Stimuli.renders_iff (c := c.printing) nofun).mp (h rfl)
    exact absurd (hsmall.2 _ rfl) (by decide)
  have hload' : load Stimuli.tool Stimuli.Config.ofSettings? true files env ["--print-config"] = .ok c.printing :=
    Stimuli.prints.load htakes hload
  obtain ⟨hending', hfiles'⟩ := process_of_load (p := stimuliGen entropy) hload'
    (body_of_not_shows hnot ⟨files, []⟩)
  have hcode : o.ending.code = 0 := by
    rw [show o.ending = _ from hending]
    rfl
  have hcode' : o'.ending.code = 1 := by
    rw [show o'.ending = _ from hending']
    rfl
  refine ⟨hload, htakes, ⟨hcode, octets (case.header c.sect), ?_⟩, ⟨hcode', ?_⟩, fun h => ?_, rfl⟩
  · rw [show o.files = _ from hfiles]
    exact Tree.node?_put (by decide)
  · rw [show o'.files = _ from hfiles']
    rfl
  · have := h.code
    rw [hcode, hcode'] at this
    cases this

end CoreBench
