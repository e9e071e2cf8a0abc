import CoreBench.Proofs.Settings.Alone

/-!
Numbers that are set alone. A number in decimal digits takes another way from each kind of source: a document has
integers of 64 bits, a text is read as a number of 64 bits without a sign, a variable is taken for an integer if it
has 63 bits and for a fraction beyond that, and an option has a bound of its own. The range, at last, keeps the lower
half of what has come that far.

What is proved:
  * `guess_toString`: what the digits of a number in a variable are taken for;
  * `loadAlone_number`: what a field keeps of a number;
  * `load_number`: what is loaded for each way to give a number, and that all of them agree up to the bound of
    the command line;
  * `load_number_changed`: beyond that bound, numbers can be changed.
-/

namespace CoreBench

open CoreBench.Files CoreBench.Settings CoreBench.Text

/-! ## Digits as text -/

/-- What has a character that is no digit is not the text of a number. -/
theorem toString_ne {n : Nat} {w : String} {c : Char} (hc : c ∈ w.toList) (hdigit : c.isDigit = false) :
    toString n ≠ w := by
  intro h
  rw [← h, toList_toString] at hc
  rw [isDigit_of_mem_digits hc] at hdigit
  cases hdigit

theorem toLower_of_isDigit {c : Char} (h : c.isDigit = true) : c.toLower = c := by
  obtain ⟨-, hhi⟩ := toNat_of_isDigit h
  unfold Char.toLower
  rw [dif_neg]
  rintro ⟨hlo, -⟩
  have : 65 ≤ c.toNat := UInt32.le_iff_toNat_le.mp hlo
  omega

theorem map_toLower_digits (n : Nat) : (digits n).map Char.toLower = digits n := by
  calc (digits n).map Char.toLower = (digits n).map id :=
        List.map_congr_left fun c hc => toLower_of_isDigit (isDigit_of_mem_digits hc)
    _ = digits n := List.map_id _

theorem lower_toString (n : Nat) : Value.lower (toString n) = toString n := by
  rw [Value.lower, toList_toString, map_toLower_digits, ← toList_toString, String.ofList_toList]

/-! ## Digits in a variable -/

theorem spanDigits_digits (n : Nat) : Binary64.spanDigits (digits n) = (digits n, []) := by
  have hall : ∀ c ∈ digits n, c.isDigit = true := fun _ => isDigit_of_mem_digits
  rw [Binary64.spanDigits, List.span_eq_takeWhile_dropWhile, List.takeWhile_eq_self_iff.mpr hall,
    List.dropWhile_eq_nil_iff.mpr hall]

/-- Digits alone are the decimal of their number, without a fraction or an exponent. -/
theorem read?_digits (n : Nat) : Binary64.read? (digits n) = some (.ofDecimal false n 0) := by
  have hword : ∀ (w : List Char) (c : Char), c ∈ w → c.isDigit = false → digits n ≠ w := by
    intro w c hc hdigit heq
    rw [isDigit_of_mem_digits (heq ▸ hc)] at hdigit
    cases hdigit
  have hsign : Binary64.read? (digits n) = Binary64.readUnsigned false (digits n) := by
    obtain ⟨c, s, e, hc⟩ := digits_eq_cons n
    have hminus : c ≠ '-' := ne_of_isDigit hc rfl
    have hplus : c ≠ '+' := ne_of_isDigit hc rfl
    rw [e]
    unfold Binary64.read?
    split <;> simp_all
  have hdecimal : Binary64.readDecimal (digits n) = some ⟨digits n, [], 0⟩ := by
    simp [Binary64.readDecimal, spanDigits_digits, digits_ne_nil, Binary64.readExponent]
  have hvalue : Nat.ofDigitChars 10 (digits n) 0 = n := Nat.ofDigitChars_ten_toDigits
  rw [hsign, Binary64.readUnsigned, map_toLower_digits, if_neg, if_neg, hdecimal]
  · simp [Binary64.Decimal.toBinary64, hvalue]
  · exact hword _ 'n' (by decide) rfl
  · rintro (h | h)
    · exact hword _ 'n' (by decide) rfl h
    · exact hword _ 'n' (by decide) rfl h

/-- **Digits in a variable** are taken for an integer if they fit, and for a fraction if they do not. -/
theorem guess_toString (n : Nat) :
    guess (toString n) = if n ≤ maxInt64 then .int n else .float (.ofDecimal false n 0) := by
  have htrue : Value.lower (toString n) ≠ "true" := by
    rw [lower_toString]
    exact toString_ne (c := 't') (by decide) rfl
  have hfalse : Value.lower (toString n) ≠ "false" := by
    rw [lower_toString]
    exact toString_ne (c := 'f') (by decide) rfl
  rw [guess, if_neg htrue, if_neg hfalse, toList_toString, readInt_digits]
  by_cases hle : n ≤ maxInt64
  · rw [readNat_digits hle, if_pos hle]
    rfl
  · obtain ⟨f, hf⟩ := readNat_digits_of_lt (Nat.lt_of_not_le hle)
    rw [hf, read?_digits, if_neg hle]
    rfl

/-! ## Fields -/

theorem toNat64?_text (n : Nat) :
    (Value.text (toString n)).toNat64? = if n ≤ max64 then some n else none := by
  have hyes : Value.lower (toString n) ∉ Value.yesWords := by
    rw [lower_toString]
    simp only [Value.yesWords, List.mem_cons, List.not_mem_nil, or_false, not_or]
    exact ⟨toString_ne (c := 't') (by decide) rfl, toString_ne (c := 'o') (by decide) rfl,
      toString_ne (c := 'y') (by decide) rfl⟩
  have hno : Value.lower (toString n) ∉ Value.noWords := by
    rw [lower_toString]
    simp only [Value.noWords, List.mem_cons, List.not_mem_nil, or_false, not_or]
    exact ⟨toString_ne (c := 'f') (by decide) rfl, toString_ne (c := 'o') (by decide) rfl,
      toString_ne (c := 'n') (by decide) rfl⟩
  rw [Value.toNat64?, if_neg hyes, if_neg hno, toList_toString]
  split
  · next hle =>
    rw [readNat_digits hle]
    rfl
  · next hlt =>
    obtain ⟨f, hf⟩ := readNat_digits_of_lt (Nat.lt_of_not_le hlt)
    rw [hf]
    rfl

/-! ## Digits in a document -/

/-- Digits between double marks are written as they are. -/
theorem notation?_text (n : Nat) :
    Toml.notation? (.text (toString n)) = some ('"' :: digits n ++ ['"']) := by
  have hplain : ∀ c ∈ digits n, Toml.isControl c = false ∧ c ≠ '\n' ∧ c ≠ '"' ∧ c ≠ '\\' ∧
      Toml.escape? false c = none := by
    intro c hc
    have hdigit := isDigit_of_mem_digits hc
    obtain ⟨hlo, hhi⟩ := toNat_of_isDigit hdigit
    have hne : ∀ d : Char, d.isDigit = false → c ≠ d := fun _ => ne_of_isDigit hdigit
    have hcontrol : Toml.isControl c = false := by
      simp only [Toml.isControl, Bool.or_eq_false_iff, Bool.and_eq_false_iff, decide_eq_false_iff_not]
      omega
    refine ⟨hcontrol, hne _ rfl, hne _ rfl, hne _ rfl, ?_⟩
    simp only [Toml.escape?, hne '\x08' rfl, hne '\t' rfl, hne '\x0c' rfl, hne '\r' rfl, hne '\\' rfl,
      hne '\n' rfl, hcontrol, if_false, Bool.false_eq_true]
  have hholds : Toml.Form.holds (digits n) .basic = true := by
    simp only [Toml.Form.holds, Toml.onLine, Bool.and_eq_true, List.all_eq_true, Bool.not_eq_true',
      decide_eq_true_eq, List.contains_eq_mem, decide_eq_false_iff_not]
    exact ⟨⟨fun c hc => ⟨(hplain c hc).1, (hplain c hc).2.1⟩, fun hc => (hplain _ hc).2.2.1 rfl⟩,
      fun hc => (hplain _ hc).2.2.2.1 rfl⟩
  have hform : Toml.Form.ofText (digits n) = .basic := by
    rw [Toml.Form.ofText, List.find?_cons_of_pos hholds]
    rfl
  rw [Toml.notation?, toList_toString, hform, Toml.Form.write,
    Toml.escaped_of_plain fun c hc => ⟨(hplain c hc).2.2.1, (hplain c hc).2.2.2.2⟩]

namespace Stimuli

/-- The options of the stimuli generator that take a number. -/
inductive NumberOption where
  | size
  | range
  | seed
  deriving DecidableEq, Repr

namespace NumberOption

/-- The name of the setting. -/
def name : NumberOption → String
  | .size => "size"
  | .range => "range"
  | .seed => "seed"

/-- The letter of the option. -/
def letter? : NumberOption → Option Char
  | .size => some 's'
  | .range => some 'r'
  | .seed => none

/-- The largest number that the option takes. -/
def bound : NumberOption → Nat
  | .size => max64
  | .range => max32
  | .seed => maxInt64

/-- The option on the command line. -/
def opt (k : NumberOption) : Opt :=
  ⟨k.name, k.letter?, .setting k.name (.natural k.bound)⟩

/-- The largest number that the command line gives: an option has its bound, and settings have theirs. -/
def limit (k : NumberOption) : Nat :=
  min k.bound maxInt64

/-- The configuration with a number in the field, and the default in all others. -/
def config : NumberOption → Nat → Config
  | .size, n => { size := n }
  | .range, n => { range := some n }
  | .seed, n => { seed := some n }

/-- What the field keeps of a number of 64 bits. -/
def kept : NumberOption → Nat → Nat
  | .range, n => n % (max32 + 1)
  | _, n => n

/-- A number of 32 bits is kept as it is, and any other one is unless it is a range. -/
theorem kept_eq {k : NumberOption} {n : Nat} (h : k = .range → n ≤ max32) : k.kept n = n := by
  cases k with
  | size => rfl
  | range => exact Nat.mod_eq_of_lt (Nat.lt_succ_of_le (h rfl))
  | seed => rfl

theorem kept_of_le {k : NumberOption} {n : Nat} (h : n ≤ k.limit) : k.kept n = n := by
  refine kept_eq fun hrange => ?_
  rw [hrange] at h
  exact Nat.le_trans h (Nat.min_le_left max32 maxInt64)

/-- The configuration that one number gives. -/
theorem ofSettings?_single (k : NumberOption) (v : Value) :
    Config.ofSettings? (.table [(k.name, v)]) = v.toNat64?.map fun n => k.config (k.kept n) := by
  cases k with
  | size =>
    simp only [Config.ofSettings?, Value.setting, Value.entries, name, List.lookup_cons, String.reduceBEq]
    cases v.toNat64? <;> rfl
  | range =>
    simp only [Config.ofSettings?, Value.setting, Value.entries, name, List.lookup_cons, String.reduceBEq,
      Value.toNat32?]
    cases v.toNat64? <;> rfl
  | seed =>
    simp only [Config.ofSettings?, Value.setting, Value.entries, name, List.lookup_cons, String.reduceBEq]
    cases v.toNat64? <;> rfl

theorem loadAlone_number (k : NumberOption) (v : Value) :
    loadAlone tool Config.ofSettings? k.name v =
      match v.toNat64? with
      | none => .error (.settings tool.name)
      | some n => .ok (k.config (k.kept n)) := by
  rw [loadAlone, ofSettings?_single]
  cases v.toNat64? <;> rfl

theorem listed (k : NumberOption) (versioned : Bool) :
    k.opt.Listed (tool.options ++ .help :: if versioned then [.version] else []) where
  takesValue := by cases k <;> rfl
  long := by cases k <;> cases versioned <;> decide
  short c hc := by
    cases k <;> cases hc <;> cases versioned <;> decide
  named := by cases k <;> decide
  letter := by cases k <;> decide

theorem ofName_name (k : NumberOption) : KeyPath.ofName k.name = [.key k.name] := by
  cases k <;> decide

theorem isBareKey_name (k : NumberOption) : Toml.isBareKey k.name = true := by
  cases k <;> decide

end NumberOption

/-! ## Ways to give a number -/

/-- The ways to give a number in decimal digits: as an integer or as a text in a configuration file, in a variable,
or on the command line. -/
inductive NumberSource where
  | integer
  | text
  | environment
  | commandLine
  deriving DecidableEq, Repr

/-- The number of 64 bits that a number becomes on its way to the field, if it is not refused. -/
def NumberSource.number? : NumberSource → NumberOption → Nat → Option Nat
  | .integer, _, n => if n ≤ maxInt64 then some n else none
  | .text, _, n => if n ≤ max64 then some n else none
  | .environment, _, n => some (if n ≤ maxInt64 then n else (Binary64.ofDecimal false n 0).toNat64)
  | .commandLine, k, n => if n ≤ k.limit then some n else none

/-- All that a run is told is a number for one field, in one way. -/
inductive Told (k : NumberOption) (n : Nat) (versioned : Bool) (files : Tree) (env : Environment)
    (args : List String) : NumberSource → Prop where
  | integer (told : TellsFile tool versioned files env args (k.name ++ " = " ++ toString n ++ "\n")) :
    Told k n versioned files env args .integer
  | text (told : TellsFile tool versioned files env args (k.name ++ " = \"" ++ toString n ++ "\"\n")) :
    Told k n versioned files env args .text
  | environment (sets : env.SetsOnly tool k.name (toString n)) (silent : args = []) :
    Told k n versioned files env args .environment
  | commandLine (lacks : env.Lacks tool) (spelled : args ∈ k.opt.spellings (toString n)) :
    Told k n versioned files env args .commandLine

section

variable {k : NumberOption} {n : Nat} {versioned : Bool} {files : Tree} {env : Environment}
  {args : List String}

/-- A number on the command line is given as it is, or refused if it is beyond the bound. -/
theorem load_spelled (versioned : Bool) (files : Tree) (hlacks : env.Lacks tool)
    (hargs : args ∈ k.opt.spellings (toString n)) :
    (n ≤ k.limit → load tool Config.ofSettings? versioned files env args = .ok (k.config n)) ∧
      (k.limit < n → ∃ e, load tool Config.ofSettings? versioned files env args = .error e) := by
  obtain ⟨c, t, hs, hc⟩ := digits_eq_cons n
  have hread : Arguments.read tool.options versioned args =
      ((Kind.natural k.bound).read (toString n)).map fun v => ⟨[(k.name, v)], []⟩ :=
    Arguments.readFrom_spelling (k.listed versioned) ((toList_toString n).trans hs)
      (ne_of_isDigit hc rfl) (ne_of_isDigit hc rfl) hargs
  rw [Kind.read, toList_toString] at hread
  by_cases hbound : n ≤ k.bound
  · rw [readNat_digits hbound] at hread
    have hload : load tool Config.ofSettings? versioned files env args = _ :=
      load_given hread hlacks k.ofName_name rfl
    rw [hload]
    constructor
    · intro hle
      have hmax : n ≤ maxInt64 := Nat.le_trans hle (Nat.min_le_right _ _)
      have hfits : fits (.int n) = true := by
        simpa [fits] using hmax
      have hvalue : (Value.int n).toNat64? = some n := if_pos (Nat.le_trans hmax (by decide))
      rw [hfits, if_pos rfl, k.loadAlone_number, hvalue]
      simp only [NumberOption.kept_of_le hle]
    · intro hlt
      have hmax : ¬ n ≤ maxInt64 := fun hmax => by
        have hle : n ≤ k.limit := Nat.le_min.mpr ⟨hbound, hmax⟩
        omega
      have hfits : fits (.int n) = false := by
        simpa [fits] using hmax
      exact ⟨.arguments, by rw [hfits]; rfl⟩
  · obtain ⟨f, hf⟩ := readNat_digits_of_lt (Nat.lt_of_not_le hbound)
    rw [hf] at hread
    refine ⟨fun hle => absurd (Nat.le_trans hle (Nat.min_le_left _ _)) hbound, fun _ => ?_⟩
    exact ⟨_, load_usage hread⟩

/-- What is loaded for a number that is all that a run is told. -/
theorem load_told {w : NumberSource} (h : Told k n versioned files env args w) :
    match w.number? k n with
    | none => ∃ e, load tool Config.ofSettings? versioned files env args = .error e
    | some m => load tool Config.ofSettings? versioned files env args = .ok (k.config (k.kept m)) := by
  cases h with
  | integer told =>
    have hline : (k.name ++ " = " ++ toString n ++ "\n").toList = Toml.line k.name (digits n) := by
      simp [Toml.line, digits]
    have hread := Toml.read_line_digits k.isBareKey_name n
    rw [← hline] at hread
    simp only [NumberSource.number?]
    by_cases hle : n ≤ maxInt64
    · have hvalue : (Value.int n).toNat64? = some n := if_pos (Nat.le_trans hle (by decide))
      rw [if_pos hle] at hread ⊢
      rw [load_file told hread k.ofName_name rfl, k.loadAlone_number, hvalue]
    · rw [if_neg hle] at hread ⊢
      exact ⟨_, load_malformed told hread⟩
  | text told =>
    have hline : (k.name ++ " = \"" ++ toString n ++ "\"\n").toList =
        Toml.line k.name ('"' :: digits n ++ ['"']) := by
      simp [Toml.line, digits]
    have hread := Toml.read_line k.isBareKey_name (notation?_text n)
    rw [← hline] at hread
    rw [load_file told hread k.ofName_name rfl, k.loadAlone_number, Plain.value, toNat64?_text]
    simp only [NumberSource.number?]
    by_cases hle : n ≤ max64
    · rw [if_pos hle]
    · rw [if_neg hle]
      exact ⟨_, rfl⟩
  | environment sets silent =>
    have hconfig : k.name ≠ "config" := by cases k <;> decide
    rw [silent, load_variable sets hconfig k.ofName_name, k.loadAlone_number, guess_toString]
    simp only [NumberSource.number?]
    by_cases hle : n ≤ maxInt64
    · have hvalue : (Value.int n).toNat64? = some n := if_pos (Nat.le_trans hle (by decide))
      rw [if_pos hle, if_pos hle, hvalue]
    · rw [if_neg hle, if_neg hle]
      rfl
  | commandLine lacks spelled =>
    obtain ⟨hwithin, hbeyond⟩ := load_spelled versioned files lacks spelled
    simp only [NumberSource.number?]
    by_cases hle : n ≤ k.limit
    · rw [if_pos hle]
      exact (hwithin hle).trans (by rw [NumberOption.kept_of_le hle])
    · rw [if_neg hle]
      exact hbeyond (Nat.lt_of_not_le hle)

/-- Up to the bound of the command line, every source gives the number itself. -/
theorem number?_of_le (w : NumberSource) (h : n ≤ k.limit) : w.number? k n = some n := by
  have hle : n ≤ maxInt64 := Nat.le_trans h (Nat.min_le_right _ _)
  have hmax : n ≤ max64 := Nat.le_trans hle (by decide)
  cases w with
  | integer => exact if_pos hle
  | text => exact if_pos hmax
  | environment => exact congrArg some (if_pos hle)
  | commandLine => exact if_pos h

/-- A number is only changed if it is a range of more than 32 bits, or one of more than 63 bits in a variable; the
command line changes none. -/
theorem number?_changed {w : NumberSource} {m : Nat} (h : w.number? k n = some m) (hne : k.kept m ≠ n) :
    w ≠ .commandLine ∧ (k = .range ∧ max32 < n ∨ w = .environment ∧ maxInt64 < n) := by
  have hkept : m = n → k = .range ∧ max32 < n := by
    rintro rfl
    refine ⟨?_, ?_⟩
    · by_contra hrange
      exact hne (NumberOption.kept_eq fun h => absurd h hrange)
    · by_contra hle
      exact hne (NumberOption.kept_eq fun _ => Nat.le_of_not_lt hle)
  cases w with
  | integer =>
    simp only [NumberSource.number?] at h
    split at h
    · exact ⟨by decide, Or.inl (hkept (Option.some.inj h).symm)⟩
    · cases h
  | text =>
    simp only [NumberSource.number?] at h
    split at h
    · exact ⟨by decide, Or.inl (hkept (Option.some.inj h).symm)⟩
    · cases h
  | environment =>
    refine ⟨by decide, ?_⟩
    by_cases hle : n ≤ maxInt64
    · simp only [NumberSource.number?, if_pos hle, Option.some.injEq] at h
      exact Or.inl (hkept h.symm)
    · exact Or.inr ⟨rfl, Nat.lt_of_not_le hle⟩
  | commandLine =>
    simp only [NumberSource.number?] at h
    split at h
    · next hle =>
      rw [← Option.some.inj h] at hne
      exact absurd (NumberOption.kept_of_le hle) hne
    · cases h

/-- **Which numbers are kept.** Up to the bound of the command line, a number that is all that a run is told is
loaded as it is, whichever way it is given. Beyond that the command line refuses it, and any other way either
refuses it too or loads what is kept of the number that it has become. So all that can be changed is a range of
more than 32 bits, or a number of more than 63 bits in a variable. -/
theorem load_number {w : NumberSource} (h : Told k n versioned files env args w) :
    (n ≤ k.limit → load tool Config.ofSettings? versioned files env args = .ok (k.config n)) ∧
    (match w.number? k n with
      | none => ∃ e, load tool Config.ofSettings? versioned files env args = .error e
      | some m => load tool Config.ofSettings? versioned files env args = .ok (k.config (k.kept m))) ∧
    ((∃ c, load tool Config.ofSettings? versioned files env args = .ok c ∧ c ≠ k.config n) →
      w ≠ .commandLine ∧ (k = .range ∧ max32 < n ∨ w = .environment ∧ maxInt64 < n)) := by
  have htold := load_told h
  refine ⟨fun hle => ?_, htold, ?_⟩
  · rw [number?_of_le w hle] at htold
    rw [htold, NumberOption.kept_of_le hle]
  · rintro ⟨c, hc, hne⟩
    cases hm : w.number? k n with
    | none =>
      rw [hm] at htold
      obtain ⟨e, he⟩ := htold
      cases hc.symm.trans he
    | some m =>
      rw [hm] at htold
      obtain rfl := Except.ok.inj (hc.symm.trans htold)
      exact number?_changed hm fun hkept => hne (by rw [hkept])

end

/-- The largest range on the command line, and a small seed in a variable. -/
theorem load_number_small :
    ["-r=4294967295"] ∈ NumberOption.range.opt.spellings (toString 4294967295) ∧
    load tool Config.ofSettings? true ⟨[], []⟩ [] ["-r=4294967295"] = .ok { range := some 4294967295 } ∧
    load tool Config.ofSettings? true ⟨[], []⟩ [("STIMULI_SEED", "7")] [] = .ok { seed := some 7 } := by
  have hspelled : ["-r=4294967295"] ∈ NumberOption.range.opt.spellings (toString 4294967295) := by
    decide
  have hname : settingName? tool.variableStem "STIMULI_SEED" = some NumberOption.seed.name := by
    decide
  refine ⟨hspelled, ?_, ?_⟩
  · exact (load_number (.commandLine (Environment.lacks_nil tool) hspelled)).1 (by decide)
  · have hsets : Environment.SetsOnly [("STIMULI_SEED", "7")] tool NumberOption.seed.name (toString 7) :=
      Environment.setsOnly_single hname "7"
    exact (load_number (.environment hsets rfl)).1 (by decide)

/-- **Numbers that are changed.** A range loses its upper half, and a seed its last digits, where the command line
would refuse them both. -/
theorem load_number_changed :
    load tool Config.ofSettings? true ⟨[], []⟩ [("STIMULI_RANGE", "4294967301")] [] =
        .ok { range := some 5 } ∧
      load tool Config.ofSettings? true ⟨[], []⟩ [("STIMULI_SEED", "9223372036854775809")] [] =
        .ok { seed := some 9223372036854775808 } ∧
      load tool Config.ofSettings? true ⟨[], []⟩ [] ["--range=4294967301"] =
        .error (.usage .invalidNumber) ∧
      load tool Config.ofSettings? true ⟨[], []⟩ [] ["--seed=9223372036854775809"] =
        .error (.usage .invalidNumber) := by
  have hrange : settingName? tool.variableStem "STIMULI_RANGE" = some NumberOption.range.name := by
    decide
  have hseed : settingName? tool.variableStem "STIMULI_SEED" = some NumberOption.seed.name := by
    decide
  have hrounded : (Binary64.ofDecimal false 9223372036854775809 0).toNat64 = 9223372036854775808 := by
    decide +kernel
  refine ⟨?_, ?_, ?_, ?_⟩
  · exact load_told (k := .range) (n := 4294967301)
      (.environment (Environment.setsOnly_single hrange "4294967301") rfl)
  · have hload : load tool Config.ofSettings? true ⟨[], []⟩ [("STIMULI_SEED", "9223372036854775809")] [] =
        .ok { seed := some (Binary64.ofDecimal false 9223372036854775809 0).toNat64 } :=
      load_told (k := .seed) (n := 9223372036854775809)
        (.environment (Environment.setsOnly_single hseed "9223372036854775809") rfl)
    rw [hload, hrounded]
  · rfl
  · rfl

end Stimuli

end CoreBench
