import CoreBench.Proofs.Toml.Number
import CoreBench.Proofs.Toml.Quoted
import CoreBench.Toml.Document

/-!
Documents of plain settings read back. A line that is written for a setting is six tokens, which are read as that
setting; lines follow one another without a trace; and a table whose names differ keeps all of them in order.

What is proved:
  * `first?_bare`, `first?_plain`: a name or a value is one token;
  * `scan_write`, `linesWith_write`: what is written is scanned and read line by line;
  * `read_write`: the document that is written for plain settings is read as those settings;
  * `read_line_digits`: a number on a line of its own is read, or refused if it has more than 63 bits.
-/

namespace CoreBench.Toml

open CoreBench.Settings CoreBench.Text

/-! ## Tokens -/

theorem ne_of_isBareChar {c d : Char} (h : isBareChar c = true) (hd : isBareChar d = false) : c ≠ d := by
  rintro rfl
  rw [h] at hd
  cases hd

theorem isSpace_of_isBareChar {c : Char} (h : isBareChar c = true) : isSpace c = false := by
  simp only [isSpace, ne_of_isBareChar h (d := ' ') rfl, ne_of_isBareChar h (d := '\t') rfl,
    decide_false, Bool.or_self]

theorem symbol?_of_isBareChar {c : Char} (h : isBareChar c = true) : symbol? c = none := by
  have hne : ∀ d : Char, isBareChar d = false → c ≠ d := fun _ => ne_of_isBareChar h
  unfold symbol?
  rw [if_neg (hne _ rfl), if_neg (hne _ rfl), if_neg (hne _ rfl), if_neg (hne _ rfl),
    if_neg (hne _ rfl), if_neg (hne _ rfl), if_neg (hne _ rfl), if_neg (hne _ rfl),
    if_neg (hne _ rfl), if_neg (hne _ rfl)]

/-- A bare word ends where the first other character stands. -/
theorem first?_bare {w : List Char} (hw : w ≠ []) (hbare : ∀ c ∈ w, isBareChar c = true) {c : Char}
    (hc : isBareChar c = false) (rest : List Char) :
    Token.first? (w ++ c :: rest) = some (.bare w, c :: rest) := by
  obtain ⟨d, w, rfl⟩ := List.exists_cons_of_ne_nil hw
  have hd := hbare d List.mem_cons_self
  have hne : ∀ e : Char, isBareChar e = false → d ≠ e := fun _ => ne_of_isBareChar hd
  have hall : ∀ e ∈ w, isBareChar e = true := fun e he => hbare e (List.mem_cons_of_mem d he)
  have hquote : ¬ (d = '\'' ∨ d = '"') := fun h => h.elim (hne _ rfl) (hne _ rfl)
  rw [List.cons_append, Token.first?, symbol?_of_isBareChar hd]
  simp only [isSpace_of_isBareChar hd, Bool.false_eq_true, if_false, hne '#' rfl, hquote, hd, if_true]
  rw [List.takeWhile_append_of_pos hall, List.dropWhile_append_of_pos hall,
    List.takeWhile_cons_of_neg (by simp [hc]), List.dropWhile_cons_of_neg (by simp [hc]),
    List.append_nil]

/-- A single blank is a token of its own ahead of anything else. -/
theorem first?_blank {c : Char} (hc : isSpace c = false) (rest : List Char) :
    Token.first? (' ' :: c :: rest) = some (.blank [' '], c :: rest) := by
  have hnot : ¬ isSpace c = true := Bool.eq_false_iff.mp hc
  have hfirst : Token.first? (' ' :: c :: rest) =
      some (.blank (' ' :: (c :: rest).takeWhile isSpace), (c :: rest).dropWhile isSpace) := rfl
  rw [hfirst, List.takeWhile_cons_of_neg hnot, List.dropWhile_cons_of_neg hnot]

/-- The token of a plain value. -/
def token : Plain → Token
  | .bool b => .bare (if b then "true".toList else "false".toList)
  | .int i => .bare (numeral i)
  | .text s => .quoted s.toList (Form.ofText s.toList).isTriple

theorem isBareChar_of_mem_numeral {i : Int} {c : Char} (h : c ∈ numeral i) : isBareChar c = true := by
  rcases mem_numeral h with rfl | h
  · rfl
  · simp only [isBareChar, Char.isAlphanum, h, Bool.or_true, Bool.true_or]

/-- A value is written as a bare word or as a quoted text. -/
theorem bare_or_text {v : Plain} {w : List Char} (h : notation? v = some w) :
    (w ≠ [] ∧ (∀ c ∈ w, isBareChar c = true) ∧ token v = .bare w) ∨
      ∃ s, v = .text s ∧ w = (Form.ofText s.toList).write s.toList := by
  cases v with
  | bool b =>
    obtain rfl : (if b then "true".toList else "false".toList) = w := Option.some.inj h
    have hbare : (if b then "true".toList else "false".toList).all isBareChar = true := by
      cases b <;> rfl
    have hne : (if b then "true".toList else "false".toList) ≠ [] := by
      cases b <;> exact List.cons_ne_nil _ _
    exact Or.inl ⟨hne, List.all_eq_true.mp hbare, rfl⟩
  | int i =>
    simp only [notation?] at h
    split at h
    · cases h
      exact Or.inl ⟨numeral_ne_nil i, fun c => isBareChar_of_mem_numeral, rfl⟩
    · cases h
  | text s =>
    cases h
    exact Or.inr ⟨s, rfl, rfl⟩

/-- A value is one token at the end of its line. -/
theorem first?_plain {v : Plain} {w : List Char} (h : notation? v = some w) (rest : List Char) :
    Token.first? (w ++ '\n' :: rest) = some (token v, '\n' :: rest) := by
  rcases bare_or_text h with ⟨hne, hbare, htoken⟩ | ⟨s, rfl, rfl⟩
  · rw [htoken]
    exact first?_bare hne hbare rfl rest
  · exact first?_write s.toList rest

theorem plain_eq_cons {v : Plain} {w : List Char} (h : notation? v = some w) :
    ∃ c s, w = c :: s ∧ isSpace c = false := by
  rcases bare_or_text h with ⟨hne, hbare, -⟩ | ⟨s, rfl, rfl⟩
  · obtain ⟨c, s, rfl⟩ := List.exists_cons_of_ne_nil hne
    exact ⟨c, s, rfl, isSpace_of_isBareChar (hbare c List.mem_cons_self)⟩
  · cases Form.ofText s.toList <;> exact ⟨_, _, rfl, rfl⟩

/-- A value brings no carriage return into a document. -/
theorem return_not_mem_plain {v : Plain} {w : List Char} (h : notation? v = some w) : '\r' ∉ w := by
  intro hr
  rcases bare_or_text h with ⟨-, hbare, -⟩ | ⟨s, rfl, rfl⟩
  · exact ne_of_isBareChar (hbare _ hr) rfl rfl
  · exact absurd (isControl_of_mem_write hr) (by decide)

/-! ## Scanning -/

/-- The tokens of a whole text. -/
def Scans (s : List Char) (ts : List Token) : Prop :=
  Token.scanWith s.length s = some ts

theorem scanWith_mono {n m : Nat} {s : List Char} {ts : List Token}
    (h : Token.scanWith n s = some ts) (hnm : n ≤ m) : Token.scanWith m s = some ts := by
  induction n generalizing m s ts with
  | zero =>
    cases s with
    | nil => cases m <;> exact h
    | cons c s => cases h
  | succ n ih =>
    cases s with
    | nil => cases m <;> exact h
    | cons c s =>
      obtain ⟨m, rfl⟩ : ∃ l, m = l + 1 := ⟨m - 1, by omega⟩
      simp only [Token.scanWith] at h ⊢
      split at h
      · cases h
      · next t rest heq =>
        obtain ⟨us, hus, rfl⟩ := Option.map_eq_some_iff.mp h
        rw [ih hus (by omega)]
        rfl

/-- One token ahead of those of the rest. -/
theorem Scans.cons {w rest : List Char} {t : Token} {ts : List Token} (hw : w ≠ [])
    (ht : Token.first? (w ++ rest) = some (t, rest)) (h : Scans rest ts) :
    Scans (w ++ rest) (t :: ts) := by
  obtain ⟨c, w, rfl⟩ := List.exists_cons_of_ne_nil hw
  -- The bound is the length of the whole text here, and more than what is left needs.
  have hrest : Token.scanWith (w ++ rest).length rest = some ts :=
    scanWith_mono h (by rw [List.length_append]; omega)
  rw [Scans, List.cons_append, List.length_cons, Token.scanWith, ← List.cons_append, ht]
  simp only
  rw [hrest]
  rfl

/-- Whether a name can stand for itself in a document. -/
def isBareKey (k : String) : Bool :=
  k.toList ≠ [] && k.toList.all isBareChar

theorem chars_of_isBareKey {k : String} (h : isBareKey k = true) :
    k.toList ≠ [] ∧ ∀ c ∈ k.toList, isBareChar c = true := by
  simpa only [isBareKey, Bool.and_eq_true, decide_eq_true_eq, List.all_eq_true] using h

/-- The tokens of a line that gives a name a value of one token. -/
def assignment (k : String) (t : Token) : List Token :=
  [.bare k.toList, .blank [' '], .equals, .blank [' '], t, .newline]

/-- The tokens of the line of a setting. -/
def lineTokens (f : String × Plain) : List Token :=
  assignment f.1 (token f.2)

theorem write?_cons_eq_some {k : String} {v : Plain} {fs : Fields} {s : List Char}
    (h : write? ((k, v) :: fs) = some s) :
    ∃ w more, notation? v = some w ∧ write? fs = some more ∧
      s = k.toList ++ ' ' :: '=' :: ' ' :: w ++ '\n' :: more := by
  simp only [write?, bind, Option.bind_eq_some_iff, Option.some.injEq] at h
  obtain ⟨w, hw, more, hmore, rfl⟩ := h
  exact ⟨w, more, hw, hmore, rfl⟩

/-- A line is scanned into its six tokens if its value is one token, whatever follows it. -/
theorem Scans.assignment {k : String} {c : Char} {w rest : List Char} {t : Token} {ts : List Token}
    (hk : isBareKey k = true) (hc : isSpace c = false)
    (ht : Token.first? (c :: w ++ '\n' :: rest) = some (t, '\n' :: rest)) (h : Scans rest ts) :
    Scans (k.toList ++ ' ' :: '=' :: ' ' :: (c :: w) ++ '\n' :: rest) (assignment k t ++ ts) := by
  obtain ⟨hne, hbare⟩ := chars_of_isBareKey hk
  -- From the end of the line to its start, one token at a time.
  have hend : Scans ('\n' :: rest) (.newline :: ts) :=
    Scans.cons (w := ['\n']) (List.cons_ne_nil _ _) rfl h
  have hvalue : Scans (c :: w ++ '\n' :: rest) (t :: .newline :: ts) :=
    Scans.cons (List.cons_ne_nil c w) ht hend
  have hgap : Scans (' ' :: (c :: w ++ '\n' :: rest)) (.blank [' '] :: t :: .newline :: ts) :=
    Scans.cons (w := [' ']) (List.cons_ne_nil _ _) (first?_blank hc _) hvalue
  have hequals : Scans ('=' :: ' ' :: (c :: w ++ '\n' :: rest))
      (.equals :: .blank [' '] :: t :: .newline :: ts) :=
    Scans.cons (w := ['=']) (List.cons_ne_nil _ _) rfl hgap
  have hblank : Scans (' ' :: '=' :: ' ' :: (c :: w ++ '\n' :: rest))
      (.blank [' '] :: .equals :: .blank [' '] :: t :: .newline :: ts) :=
    Scans.cons (w := [' ']) (List.cons_ne_nil _ _) (first?_blank rfl _) hequals
  rw [show k.toList ++ ' ' :: '=' :: ' ' :: (c :: w) ++ '\n' :: rest =
    k.toList ++ ' ' :: '=' :: ' ' :: (c :: w ++ '\n' :: rest) by simp]
  exact Scans.cons hne (first?_bare hne hbare rfl _) hblank

theorem scans_write {fs : Fields} (hkeys : ∀ f ∈ fs, isBareKey f.1 = true) {s : List Char}
    (h : write? fs = some s) : Scans s (fs.flatMap lineTokens) := by
  induction fs generalizing s with
  | nil =>
    cases h
    rfl
  | cons f fs ih =>
    obtain ⟨k, v⟩ := f
    obtain ⟨w, more, hw, hmore, rfl⟩ := write?_cons_eq_some h
    obtain ⟨c, w, rfl, hc⟩ := plain_eq_cons hw
    exact Scans.assignment (hkeys (k, v) List.mem_cons_self) hc (first?_plain hw more)
      (ih (fun f hf => hkeys f (List.mem_cons_of_mem _ hf)) hmore)

/-! ## Ahead of scanning -/

theorem foldReturns_of_not_mem {s : List Char} (h : '\r' ∉ s) : foldReturns s = s := by
  induction s with
  | nil => rfl
  | cons c s ih =>
    have hs : '\r' ∉ s := fun hs => h (List.mem_cons_of_mem c hs)
    unfold foldReturns
    split
    · next heq =>
      rw [heq] at h
      exact absurd List.mem_cons_self h
    · next heq =>
      obtain ⟨rfl, rfl⟩ := List.cons.inj heq
      rw [ih hs]
    · next heq => exact absurd heq (List.cons_ne_nil c s)

theorem dropMark_of_isBareChar {c : Char} (h : isBareChar c = true) (s : List Char) :
    dropMark (c :: s) = c :: s := by
  have hc : c.toNat ≠ 0xFEFF := fun heq =>
    ne_of_isBareChar h (d := '\uFEFF') rfl (Char.toNat_inj.mp heq)
  rw [dropMark, if_neg hc]

theorem return_not_mem_write {fs : Fields} (hkeys : ∀ f ∈ fs, isBareKey f.1 = true) {s : List Char}
    (h : write? fs = some s) : '\r' ∉ s := by
  induction fs generalizing s with
  | nil =>
    cases h
    exact List.not_mem_nil
  | cons f fs ih =>
    obtain ⟨k, v⟩ := f
    obtain ⟨w, more, hw, hmore, rfl⟩ := write?_cons_eq_some h
    have hk := chars_of_isBareKey (hkeys (k, v) List.mem_cons_self)
    have hrest := ih (fun f hf => hkeys f (List.mem_cons_of_mem _ hf)) hmore
    simp only [List.mem_append, List.mem_cons, not_or]
    refine ⟨⟨fun hr => ne_of_isBareChar (hk.2 _ hr) rfl rfl, by decide, by decide, by decide,
      return_not_mem_plain hw⟩, by decide, hrest⟩

/-- A document that starts with a name and has no carriage return is scanned as it is. -/
theorem scan_of_scans {k : String} {s : List Char} {ts : List Token} (hk : isBareKey k = true)
    (hreturn : '\r' ∉ k.toList ++ s) (h : Scans (k.toList ++ s) ts) :
    Token.scan (k.toList ++ s) = some ts := by
  obtain ⟨hne, hbare⟩ := chars_of_isBareKey hk
  obtain ⟨c, t, hcons⟩ := List.exists_cons_of_ne_nil hne
  have hmark : dropMark (k.toList ++ s) = k.toList ++ s := by
    rw [hcons] at hbare ⊢
    exact dropMark_of_isBareChar (hbare c List.mem_cons_self) _
  rw [Token.scan, hmark, foldReturns_of_not_mem hreturn]
  exact h

/-- **What is written is scanned** into the tokens of its lines. -/
theorem scan_write {fs : Fields} (hkeys : ∀ f ∈ fs, isBareKey f.1 = true) {s : List Char}
    (h : write? fs = some s) : Token.scan s = some (fs.flatMap lineTokens) := by
  cases fs with
  | nil =>
    cases h
    rfl
  | cons f fs =>
    obtain ⟨k, v⟩ := f
    have hscans := scans_write hkeys h
    have hreturn := return_not_mem_write hkeys h
    obtain ⟨w, more, -, -, rfl⟩ := write?_cons_eq_some h
    rw [List.append_assoc] at hscans hreturn ⊢
    exact scan_of_scans (hkeys (k, v) List.mem_cons_self) hreturn hscans

/-! ## Lines -/

/-- A word that starts like a number and is none of the words for a switch is read as a number or a date. -/
theorem value_numeral (i : Int) (n : Nat) (ts : List Token) :
    value (n + 1) (.bare (numeral i) :: ts) =
      (numberOrDate (numeral i) ts).map fun (v, ts) => (.plain v, ts) := by
  have htrue : numeral i ≠ "true".toList := fun h =>
    not_mem_numeral (c := 't') rfl (by decide) i (h ▸ List.mem_cons_self)
  have hfalse : numeral i ≠ "false".toList := fun h =>
    not_mem_numeral (c := 'f') rfl (by decide) i (h ▸ List.mem_cons_self)
  obtain ⟨c, s, hs⟩ := List.exists_cons_of_ne_nil (numeral_ne_nil i)
  have hhead : ((numeral i).head?.any fun c => c = '-' ∨ c.isDigit) = true := by
    rw [hs, List.head?_cons, Option.any_some, decide_eq_true_eq]
    exact mem_numeral (hs ▸ List.mem_cons_self)
  rw [value]
  simp only
  rw [if_neg htrue, if_neg hfalse, if_pos (Or.inr (Or.inr hhead))]

/-- The token of a value is read as the value, at the end of its line. -/
theorem value_token {v : Plain} {w : List Char} (h : notation? v = some w) (n : Nat) (ts : List Token) :
    value (n + 1) (token v :: .newline :: ts) = some (.plain v.value, .newline :: ts) := by
  cases v with
  | bool b => cases b <;> rfl
  | int i =>
    simp only [notation?] at h
    split at h
    · next hbounds =>
      rw [token, value_numeral, numberOrDate_numeral hbounds.1 hbounds.2]
      rfl
    · cases h
  | text s => simp [value, token, Plain.value]

/-- A line is read as far as its value. -/
theorem setting_assignment (k : String) (t : Token) (ts : List Token) :
    setting (assignment k t ++ ts) = (value (ts.length + 3) (t :: .newline :: ts)).bind fun r =>
      (lineEnd r.2).bind fun us => some (.setting [k] r.1, us) := by
  have hkey : key (assignment k t ++ ts) =
      some ([k], .equals :: .blank [' '] :: t :: .newline :: ts) := by
    simp [key, name, assignment, moreNames, skipBlank, String.ofList_toList]
  simp only [setting, hkey, Option.bind_eq_bind, Option.bind_some, expect, if_true, skipBlank,
    List.length_cons]

/-- The tokens of a line are read as its setting. -/
theorem setting_lineTokens {k : String} {v : Plain} {w : List Char} (h : notation? v = some w)
    (ts : List Token) :
    setting (lineTokens (k, v) ++ ts) = some (.setting [k] (.plain v.value), ts) := by
  rw [lineTokens, setting_assignment, value_token h (ts.length + 2) ts]
  rfl

/-- Settings are read line by line. -/
theorem linesWith_write {fs : Fields} {s : List Char} (h : write? fs = some s) {n : Nat}
    (hn : fs.length ≤ n) :
    linesWith n (fs.flatMap lineTokens) =
      some (fs.map fun f => .setting [f.1] (.plain f.2.value)) := by
  induction fs generalizing s n with
  | nil => cases n <;> rfl
  | cons f fs ih =>
    obtain ⟨k, v⟩ := f
    obtain ⟨w, more, hw, hmore, -⟩ := write?_cons_eq_some h
    obtain ⟨n, rfl⟩ : ∃ m, n = m + 1 := ⟨n - 1, by rw [List.length_cons] at hn; omega⟩
    have hrest := ih hmore (show fs.length ≤ n by rw [List.length_cons] at hn; omega)
    have hline := setting_lineTokens (k := k) hw (fs.flatMap lineTokens)
    -- A line starts with a name, so nothing is skipped ahead of it and it is no header.
    rw [List.flatMap_cons, linesWith.eq_def]
    simp only [lineTokens, assignment, List.cons_append, List.nil_append] at hline ⊢
    simp only [skipFiller, isFiller, List.dropWhile_cons, Bool.false_eq_true, if_false, reduceCtorEq,
      hline, Option.bind_eq_bind, Option.bind_some]
    rw [hrest]
    rfl

theorem length_lineTokens (fs : Fields) : (fs.flatMap lineTokens).length = 6 * fs.length := by
  induction fs with
  | nil => rfl
  | cons f fs ih =>
    rw [List.flatMap_cons, List.length_append, ih, List.length_cons]
    have : (lineTokens f).length = 6 := rfl
    omega

/-! ## Tables -/

theorem collect_settings (fs : Fields) (root : Pairs) :
    collect none root (fs.map fun f => .setting [f.1] (.plain f.2.value)) =
      some ⟨root ++ fs.map fun f => (f.1, .plain f.2.value), []⟩ := by
  induction fs generalizing root with
  | nil => simp [collect]
  | cons f fs ih =>
    rw [List.map_cons, collect]
    simp only [Pairs.add, Option.bind_eq_bind, Option.bind_some]
    rw [ih, List.append_assoc]
    rfl

/-- Names that differ are all kept, in order. -/
theorem entries?_plain {fs : Fields} (h : (fs.map Prod.fst).Nodup) :
    entries? (fs.map fun f => (f.1, .plain f.2.value)) = some fs.entries := by
  induction fs with
  | nil => rfl
  | cons f fs ih =>
    obtain ⟨hnot, hnodup⟩ := List.nodup_cons.mp h
    have hnone : (Fields.entries fs).lookup f.1 = none := by
      rw [List.lookup_eq_none_iff]
      intro e he
      obtain ⟨g, hg, rfl⟩ := List.mem_map.mp he
      exact bne_iff_ne.mpr fun heq => hnot (List.mem_map.mpr ⟨g, hg, heq.symm⟩)
    rw [List.map_cons, entries?]
    simp only [Node.value?, ih hnodup, Option.bind_eq_bind, Option.bind_some, hnone,
      Option.isSome_none, Bool.false_eq_true, if_false]
    rfl

/-- **Plain settings are read back.** What is written for settings whose names can stand for themselves and differ
is read as those settings, in the same order. -/
theorem read_write {fs : Fields} (hkeys : ∀ f ∈ fs, isBareKey f.1 = true)
    (hnodup : (fs.map Prod.fst).Nodup) {s : List Char} (h : write? fs = some s) :
    read s = some fs.entries := by
  have hlen : fs.length ≤ (fs.flatMap lineTokens).length := by
    rw [length_lineTokens]
    omega
  have hlines : lines (fs.flatMap lineTokens) = _ := linesWith_write h hlen
  have htable : tableOf 1 (fs.map fun f => (f.1, .plain f.2.value)) [] = some fs.entries := by
    simp [tableOf, entries?_plain hnodup, heads]
  simp only [read, scan_write hkeys h, hlines, collect_settings, Option.bind_eq_bind, Option.bind_some,
    List.nil_append]
  exact htable

/-! ## Documents of one line -/

/-- The line that gives a name a value. -/
def line (k : String) (w : List Char) : List Char :=
  k.toList ++ ' ' :: '=' :: ' ' :: w ++ ['\n']

theorem read_line {k : String} (hk : isBareKey k = true) {v : Plain} {w : List Char}
    (h : notation? v = some w) : read (line k w) = some [(k, v.value)] := by
  have hwrite : write? [(k, v)] = some (line k w) := by
    simp only [write?, h, Option.bind_eq_bind, Option.bind_some, line]
  rw [read_write (by simpa using hk) (by simp) hwrite]
  rfl

/-- A number is read as an integer, or its document is refused if it has more than 63 bits. -/
theorem read_line_digits {k : String} (hk : isBareKey k = true) (n : Nat) :
    read (line k (digits n)) = if n ≤ maxInt64 then some [(k, .int n)] else none := by
  split
  · next hle =>
    have hbounds : -(maxInt64 + 1) ≤ (n : Int) ∧ (n : Int) ≤ maxInt64 := by omega
    exact read_line hk (v := .int n) (if_pos hbounds)
  · next hlt =>
    have hbare : ∀ c ∈ digits n, isBareChar c = true := fun c =>
      isBareChar_of_mem_numeral (i := n)
    have hvalue : value 3 [.bare (digits n), .newline] = none := by
      have hnone := numberOrDate_of_lt (Nat.lt_of_not_le hlt) []
      have heq : value 3 [.bare (digits n), .newline] = _ := value_numeral n 2 [.newline]
      rw [heq, Option.map_eq_none_iff]
      exact hnone
    have hlines : lines (assignment k (.bare (digits n))) = none := by
      have hline := setting_assignment k (.bare (digits n)) []
      rw [List.length_nil, hvalue] at hline
      rw [lines, linesWith.eq_def]
      simp only [assignment, List.cons_append, List.nil_append] at hline ⊢
      simp only [skipFiller, isFiller, List.dropWhile_cons, Bool.false_eq_true, if_false, reduceCtorEq,
        List.length_cons, hline, Option.bind_none, Option.bind_eq_bind]
    have hreturn : '\r' ∉ line k (digits n) := by
      have hname : '\r' ∉ k.toList := fun h => ne_of_isBareChar ((chars_of_isBareKey hk).2 _ h) rfl rfl
      have hnumber : '\r' ∉ digits n := fun h => ne_of_isBareChar (hbare _ h) rfl rfl
      simp [line, hname, hnumber]
    obtain ⟨c, w, hw, -⟩ := digits_eq_cons n
    rw [hw] at hbare hlines hreturn ⊢
    have hfirst : Token.first? (c :: w ++ ['\n']) = some (.bare (c :: w), ['\n']) :=
      first?_bare (List.cons_ne_nil c w) hbare rfl []
    have hspace : isSpace c = false := isSpace_of_isBareChar (hbare c List.mem_cons_self)
    have hscans : Scans (line k (c :: w)) (assignment k (.bare (c :: w)) ++ []) :=
      Scans.assignment hk hspace hfirst rfl
    rw [List.append_nil] at hscans
    rw [line, List.append_assoc] at hscans hreturn ⊢
    rw [read, scan_of_scans hk hreturn hscans, Option.bind_eq_bind, Option.bind_some, hlines]
    rfl

end CoreBench.Toml
