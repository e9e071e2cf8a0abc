import CoreBench.Proofs.Settings.Alone

/-!
Texts that are set alone. A text on the command line is kept as it is. One in a variable is first taken for a switch,
an integer or a fraction, if it reads as one, and an option for a text then shows what it has been taken for in its
usual notation.

What is proved:
  * `toText?_guess`: a text in a variable is respelled;
  * `respelled_cases`: the ways in which a text is respelled;
  * `respelled_of_mem`: a text with a character that is in no switch and in no number stays as it is;
  * `load_texts`: what is loaded for a text in a variable and on the command line;
  * `load_texts_changed`: a text that the two do not agree on.
-/

namespace CoreBench

open CoreBench.Files CoreBench.Settings CoreBench.Text

namespace Settings

/-- The text that a text in a variable comes to: what it is taken for, in its usual notation. -/
def respelled (s : String) : String :=
  match guess s with
  | .bool b => if b then "true" else "false"
  | .int i => intText i
  | .float x => x.text
  | _ => s

/-- The ways in which a text is respelled: as a switch in lower case, as an integer, as a fraction, or not at
all. -/
theorem respelled_cases (s : String) :
    (Value.lower s = "true" ∨ Value.lower s = "false") ∧ respelled s = Value.lower s ∨
    (∃ i, readInt (maxInt64 + 1) maxInt64 s.toList = .ok i ∧ respelled s = intText i) ∨
    (∃ x, Binary64.read? s.toList = some x ∧ respelled s = x.text) ∨
    guess s = .text s ∧ respelled s = s := by
  unfold respelled
  by_cases htrue : Value.lower s = "true"
  · left
    rw [guess, if_pos htrue, htrue]
    exact ⟨Or.inl rfl, rfl⟩
  · by_cases hfalse : Value.lower s = "false"
    · left
      rw [guess, if_neg htrue, if_pos hfalse, hfalse]
      exact ⟨Or.inr rfl, rfl⟩
    · right
      rw [guess, if_neg htrue, if_neg hfalse]
      cases readInt (maxInt64 + 1) maxInt64 s.toList with
      | ok i => exact Or.inl ⟨i, rfl, rfl⟩
      | error f =>
        right
        cases Binary64.read? s.toList with
        | some x => exact Or.inl ⟨x, rfl, rfl⟩
        | none => exact Or.inr ⟨rfl, rfl⟩

/-- A text in a variable is respelled. -/
theorem toText?_guess (s : String) : (guess s).toText? = some (respelled s) := by
  unfold respelled guess
  split
  · rfl
  · split
    · rfl
    · split
      · rfl
      · split <;> rfl

/-! ## Characters of switches and numbers -/

/-- The characters of switches and numbers other than digits, in lower case. -/
def wordChars : List Char :=
  ['+', '-', '.', 'a', 'e', 'f', 'i', 'l', 'n', 'r', 's', 't', 'u', 'y']

/-- Whether a character can be in a switch or in a number. -/
def isWordChar (c : Char) : Bool :=
  c.isDigit || wordChars.contains c.toLower

theorem isWordChar_of_isDigit {c : Char} (h : c.isDigit = true) : isWordChar c = true := by
  rw [isWordChar, h, Bool.true_or]

/-- A word of these letters has them in either case. -/
theorem isWordChar_of_lower {s : List Char} {w : String} (h : s.map Char.toLower = w.toList)
    (hw : w.toList.all wordChars.contains = true) :
    ∀ c ∈ s, isWordChar c = true := by
  intro c hc
  rw [isWordChar, List.all_eq_true.mp hw c.toLower (h ▸ List.mem_map_of_mem hc), Bool.or_true]

theorem isWordChar_of_readDigits {bound value n : Nat} {past : NumeralFault} {s : List Char}
    (h : readDigits bound past value s = .ok n) : ∀ c ∈ s, isWordChar c = true :=
  fun c hc => isWordChar_of_isDigit (isDigit_of_readDigits h c hc)

theorem isWordChar_of_readInt {below above : Nat} {i : Int} {s : List Char}
    (h : readInt below above s = .ok i) : ∀ c ∈ s, isWordChar c = true := by
  have hnat : ∀ {n : Nat}, readNat above s = .ok n → ∀ c ∈ s, isWordChar c = true := by
    intro n hn
    unfold readNat at hn
    split at hn
    · cases hn
    · cases hn
    · exact List.forall_mem_cons.mpr ⟨rfl, isWordChar_of_readDigits hn⟩
    · exact isWordChar_of_readDigits hn
  unfold readInt at h
  split at h
  · cases h
  · next t _ =>
    cases ht : readDigits below .tooSmall 0 t with
    | error f => rw [ht] at h; cases h
    | ok n => exact List.forall_mem_cons.mpr ⟨rfl, isWordChar_of_readDigits ht⟩
  · cases ht : readNat above s with
    | error f => rw [ht] at h; cases h
    | ok n => exact hnat ht

/-! Fractions: digits, a point, an exponent; or one of three words. -/

theorem isWordChar_of_readExponent {s : List Char} {e : Int} (h : Binary64.readExponent s = some e) :
    ∀ c ∈ s, isWordChar c = true := by
  cases s with
  | nil => exact fun c hc => absurd hc List.not_mem_nil
  | cons c s =>
    simp only [Binary64.readExponent] at h
    split at h
    · cases h
    · next hletter =>
      have hc : isWordChar c = true := by
        by_cases he : c = 'e'
        · rw [he]
          rfl
        · by_cases hE : c = 'E'
          · rw [hE]
            rfl
          · exact absurd ⟨he, hE⟩ hletter
      have hdigits : ∀ {t : List Char} {v : Int},
          (if t ≠ [] ∧ t.all Char.isDigit = true then some v else none) = some e →
            ∀ d ∈ t, isWordChar d = true := by
        intro t v ht d hd
        split at ht
        · next hall => exact isWordChar_of_isDigit (List.all_eq_true.mp hall.2 d hd)
        · cases ht
      refine List.forall_mem_cons.mpr ⟨hc, ?_⟩
      split at h
      · exact List.forall_mem_cons.mpr ⟨rfl, hdigits h⟩
      · exact List.forall_mem_cons.mpr ⟨rfl, hdigits h⟩
      · exact hdigits h

theorem isWordChar_of_spanDigits {s t ds : List Char} (h : Binary64.spanDigits s = (ds, t))
    (ht : ∀ c ∈ t, isWordChar c = true) : ∀ c ∈ s, isWordChar c = true := by
  rw [Binary64.spanDigits, List.span_eq_takeWhile_dropWhile, Prod.mk.injEq] at h
  obtain ⟨rfl, rfl⟩ := h
  intro c hc
  rw [← List.takeWhile_append_dropWhile (p := Char.isDigit) (l := s)] at hc
  rcases List.mem_append.mp hc with hc | hc
  · exact isWordChar_of_isDigit (List.mem_takeWhile_imp hc)
  · exact ht c hc

theorem isWordChar_of_readDecimal {s : List Char} {d : Binary64.Decimal}
    (h : Binary64.readDecimal s = some d) : ∀ c ∈ s, isWordChar c = true := by
  unfold Binary64.readDecimal at h
  split at h
  next whole t hwhole =>
  have hexponent : ∀ {p : Prop} [Decidable p] {f : Int → Binary64.Decimal} {u : List Char},
      (if p then none else (Binary64.readExponent u).map f) = some d → ∀ c ∈ u, isWordChar c = true := by
    intro p _ f u hu
    split at hu
    · cases hu
    · obtain ⟨e, he, -⟩ := Option.map_eq_some_iff.mp hu
      exact isWordChar_of_readExponent he
  refine isWordChar_of_spanDigits hwhole ?_
  simp only at h
  split at h
  · exact List.forall_mem_cons.mpr ⟨rfl, isWordChar_of_spanDigits rfl (hexponent h)⟩
  · exact hexponent h

theorem isWordChar_of_readUnsigned {negative : Bool} {s : List Char} {x : Binary64}
    (h : Binary64.readUnsigned negative s = some x) : ∀ c ∈ s, isWordChar c = true := by
  simp only [Binary64.readUnsigned] at h
  split at h
  · next hword =>
    rcases hword with hword | hword
    · exact isWordChar_of_lower hword rfl
    · exact isWordChar_of_lower hword rfl
  · split at h
    · next hword => exact isWordChar_of_lower hword rfl
    · obtain ⟨d, hd, -⟩ := Option.map_eq_some_iff.mp h
      exact isWordChar_of_readDecimal hd

theorem isWordChar_of_read? {s : List Char} {x : Binary64} (h : Binary64.read? s = some x) :
    ∀ c ∈ s, isWordChar c = true := by
  unfold Binary64.read? at h
  split at h
  · exact List.forall_mem_cons.mpr ⟨rfl, isWordChar_of_readUnsigned h⟩
  · exact List.forall_mem_cons.mpr ⟨rfl, isWordChar_of_readUnsigned h⟩
  · exact isWordChar_of_readUnsigned h

/-- A text with a character that is in no switch and in no number stays as it is. -/
theorem respelled_of_mem {s : String} {c : Char} (hc : c ∈ s.toList) (hword : isWordChar c = false) :
    respelled s = s := by
  have hnot : ¬ ∀ c ∈ s.toList, isWordChar c = true := fun h => by
    rw [h c hc] at hword
    cases hword
  rcases respelled_cases s with ⟨hlower, -⟩ | ⟨i, hi, -⟩ | ⟨x, hx, -⟩ | ⟨-, hsame⟩
  · have hmap : s.toList.map Char.toLower = (Value.lower s).toList := (String.toList_ofList).symm
    rcases hlower with htrue | hfalse
    · rw [htrue] at hmap
      exact absurd (isWordChar_of_lower hmap rfl) hnot
    · rw [hfalse] at hmap
      exact absurd (isWordChar_of_lower hmap rfl) hnot
  · exact absurd (isWordChar_of_readInt hi) hnot
  · exact absurd (isWordChar_of_read? hx) hnot
  · exact hsame

end Settings

/-! ## Options for a text -/

/-- The options for a text: the tool, what its settings give, the option, and the configuration with a text in the
field of that name and the default in all others. -/
inductive TakesText : {γ : Type} → Tool → (Value → Option γ) → Opt → (String → γ) → Prop where
  | sect : TakesText Stimuli.tool Stimuli.Config.ofSettings? ⟨"section", none, .setting "section" .text⟩
      fun s => { sect := s }
  | output : TakesText Stimuli.tool Stimuli.Config.ofSettings? ⟨"output", some 'o', .setting "output" .path⟩
      fun s => { output := s }
  | input : TakesText Trace.tool Trace.Config.ofSettings? ⟨"input", some 'i', .setting "input" .path⟩
      fun s => { input := s }

namespace TakesText

variable {γ : Type} {tool : Tool} {decode : Value → Option γ} {o : Opt} {config : String → γ}

theorem ofName_eq (h : TakesText tool decode o config) : KeyPath.ofName o.long = [.key o.long] := by
  cases h <;> decide

theorem ne_config (h : TakesText tool decode o config) : o.long ≠ "config" := by
  cases h <;> decide

/-- The configuration that one text gives. -/
theorem decode_single (h : TakesText tool decode o config) (v : Value) :
    decode (.table [(o.long, v)]) = v.toText?.map config := by
  cases h with
  | sect =>
    simp only [Stimuli.Config.ofSettings?, Value.setting, Value.entries, List.lookup_cons, String.reduceBEq]
    cases v.toText? <;> rfl
  | output =>
    simp only [Stimuli.Config.ofSettings?, Value.setting, Value.entries, List.lookup_cons, String.reduceBEq]
    cases v.toText? <;> rfl
  | input =>
    simp only [Trace.Config.ofSettings?, Value.setting, Value.entries, List.lookup_cons, String.reduceBEq]
    cases v.toText? <;> rfl

theorem loadAlone_eq (h : TakesText tool decode o config) {v : Value} {s : String}
    (hv : v.toText? = some s) : loadAlone tool decode o.long v = .ok (config s) := by
  rw [loadAlone, h.decode_single, hv]
  rfl

theorem config_inj (h : TakesText tool decode o config) {s t : String} : config s = config t ↔ s = t := by
  cases h <;> simp

theorem listed (h : TakesText tool decode o config) (versioned : Bool) :
    o.Listed (tool.options ++ .help :: if versioned then [.version] else []) where
  takesValue := by cases h <;> rfl
  long := by cases h <;> cases versioned <;> decide
  short c hc := by
    cases h <;> cases hc <;> cases versioned <;> decide
  named := by cases h <;> decide
  letter := by cases h <;> decide

/-- On the command line, an option for a text gives the text as it is; only a path must not be empty. -/
theorem take_eq (h : TakesText tool decode o config) {s : String} (hs : s ≠ "") :
    ({} : Arguments).take o s = .ok ⟨[(o.long, .text s)], []⟩ := by
  have hpath : Kind.path.read s = .ok (.text s) := if_neg hs
  cases h with
  | sect => rfl
  | output =>
    show (Kind.path.read s).map _ = _
    rw [hpath]
    rfl
  | input =>
    show (Kind.path.read s).map _ = _
    rw [hpath]
    rfl

theorem load_variable (h : TakesText tool decode o config) {versioned : Bool} {files : Tree}
    {env : Environment} {s : String} (henv : env.SetsOnly tool o.long s) :
    load tool decode versioned files env [] = .ok (config (respelled s)) := by
  rw [Settings.load_variable henv h.ne_config h.ofName_eq, h.loadAlone_eq (toText?_guess s)]

theorem load_argument (h : TakesText tool decode o config) {versioned : Bool} {files : Tree}
    {env : Environment} {s : String} (henv : env.Lacks tool) (hs : s ≠ "") :
    load tool decode versioned files env ["--" ++ o.long ++ "=" ++ s] = .ok (config s) := by
  have hargs : Arguments.read tool.options versioned ["--" ++ o.long ++ "=" ++ s] = _ :=
    (Arguments.readFrom_long_attached (h.listed versioned) s).trans (h.take_eq hs)
  rw [load_given hargs henv h.ofName_eq rfl]
  exact h.loadAlone_eq rfl

end TakesText

/-- **How texts are taken.** A text that is all that a run is told is respelled if it stands in a variable, and kept
as it is if it stands on the command line, where a path must not be empty. So a text in a variable is kept exactly if
respelling leaves it alone, and this is the case for all texts with a character which is in no switch and in no
number. -/
theorem load_texts {γ : Type} {tool : Tool} {decode : Value → Option γ} {o : Opt} {config : String → γ}
    (h : TakesText tool decode o config) (s : String) (versioned : Bool) (files : Tree)
    {env silent : Environment} (henv : env.SetsOnly tool o.long s) (hsilent : silent.Lacks tool) :
    load tool decode versioned files env [] = .ok (config (respelled s)) ∧
    (s ≠ "" → load tool decode versioned files silent ["--" ++ o.long ++ "=" ++ s] = .ok (config s)) ∧
    (load tool decode versioned files env [] = .ok (config s) ↔ respelled s = s) ∧
    ((∃ c ∈ s.toList, isWordChar c = false) → respelled s = s) := by
  have hvariable : load tool decode versioned files env [] = .ok (config (respelled s)) :=
    h.load_variable henv
  refine ⟨hvariable, h.load_argument hsilent, ?_, ?_⟩
  · rw [hvariable, Except.ok.injEq, h.config_inj]
  · rintro ⟨c, hc, hword⟩
    exact respelled_of_mem hc hword

/-- A section with characters that are in no number. -/
theorem load_texts_plain :
    settingName? Stimuli.tool.variableStem "STIMULI_SECTION" = some "section" ∧
      load Stimuli.tool Stimuli.Config.ofSettings? true ⟨[], []⟩ [("STIMULI_SECTION", ".fast_1")] [] =
        .ok { sect := ".fast_1" } ∧
      load Stimuli.tool Stimuli.Config.ofSettings? true ⟨[], []⟩ [] ["--section=.fast_1"] =
        .ok { sect := ".fast_1" } := by
  have hname : settingName? Stimuli.tool.variableStem "STIMULI_SECTION" = some "section" := by
    decide
  obtain ⟨-, hargument, hkept, hplain⟩ := load_texts .sect ".fast_1" true ⟨[], []⟩
    (Environment.setsOnly_single hname ".fast_1") (Environment.lacks_nil _)
  exact ⟨hname, hkept.mpr (hplain ⟨'_', by decide, by decide⟩), hargument (by decide)⟩

/-- **Texts that are changed.** A section that reads as an integer, an output that reads as a fraction, and an input
that reads as a switch, none of which the command line changes. -/
theorem load_texts_changed :
    load Stimuli.tool Stimuli.Config.ofSettings? true ⟨[], []⟩ [("STIMULI_SECTION", "007")] [] =
        .ok { sect := "7" } ∧
      load Stimuli.tool Stimuli.Config.ofSettings? true ⟨[], []⟩ [] ["--section=007"] =
        .ok { sect := "007" } ∧
      load Stimuli.tool Stimuli.Config.ofSettings? true ⟨[], []⟩ [("STIMULI_OUTPUT", "1e3")] [] =
        .ok { output := "1000" } ∧
      load Trace.tool Trace.Config.ofSettings? true ⟨[], []⟩ [("TRACE_STATS_INPUT", "TRUE")] [] =
        .ok { input := "true" } := by
  have hinteger : respelled "007" = "7" := by
    decide +kernel
  have hfraction : respelled "1e3" = "1000" := by
    decide +kernel
  have hswitch : respelled "TRUE" = "true" := by
    decide +kernel
  have hsect : settingName? Stimuli.tool.variableStem "STIMULI_SECTION" = some "section" := by
    decide
  have houtput : settingName? Stimuli.tool.variableStem "STIMULI_OUTPUT" = some "output" := by
    decide
  have hinput : settingName? Trace.tool.variableStem "TRACE_STATS_INPUT" = some "input" := by
    decide
  refine ⟨?_, ?_, ?_, ?_⟩
  · rw [TakesText.sect.load_variable (Environment.setsOnly_single hsect "007"), hinteger]
  · exact TakesText.sect.load_argument (s := "007") (Environment.lacks_nil _) (by decide)
  · rw [TakesText.output.load_variable (Environment.setsOnly_single houtput "1e3"), hfraction]
  · rw [TakesText.input.load_variable (Environment.setsOnly_single hinput "TRUE"), hswitch]

end CoreBench
