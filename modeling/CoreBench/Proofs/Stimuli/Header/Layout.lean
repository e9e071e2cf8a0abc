import CoreBench.Proofs.Stimuli.Rows
import CoreBench.Proofs.Text.Cut
import CoreBench.Proofs.Text.Decimal
import CoreBench.Stimuli.Header.Check

/-!
The layout of a header, part by part, and what reading makes of each part: three arrays, the line with the size,
and the declarations of the buffers. Reading looks for each part from the start of the text, so each part
comes with a law for what is passed on the way to it.

What is proved:
  * `toList_header`: a header is its parts, one behind the other;
  * `readArray_arrayFront`, `readSize_sizeLine`: an array and the size are read as they were written;
  * `readBuffer?_declaration`: the declaration of a buffer is read whatever its section is, and as it was
    written unless the section holds what stands behind a section;
  * `of_readBuffers`: no section that is read holds a newline or what stands behind a section;
  * `read_header`: the matrices and the size are read back, whatever the section of the buffers is, as far as
    the lines of the declarations can be read.
-/

namespace CoreBench.Stimuli.Header

open CoreBench.Text

/-! ## Parts -/

/-- The text of the elements of a row. -/
def rowText (row : List Int32) : List Char :=
  row.flatMap fun v => numeral v.toInt ++ [',']

/-- The text of the rows of an array. -/
def rowsText (rows : List (List Int32)) : List Char :=
  rows.flatMap fun row => '\n' :: '\t' :: rowText row

/-- The text of an array up to the last of the two newlines behind it. -/
def arrayFront (name : String) (m : Matrix) : List Char :=
  (arrayOpening name).toList ++ (rowsText m.rows ++ ['\n', '\x7d', ';', '\n'])

/-- The declaration of a buffer. -/
def declaration (sect name : String) : List Char :=
  bufferOpening.toList ++ (sect.toList ++ (bufferMiddle.toList ++ (name.toList ++ bufferClosing.toList)))

/-- The declarations of buffers in a section, each on a line of its own. -/
def declarations (sect : String) (names : List String) : List Char :=
  names.flatMap fun name => declaration sect name ++ ['\n']

theorem toList_rowPieces (row : List Int32) :
    (rowPieces row).flatMap String.toList = '\n' :: '\t' :: rowText row := by
  simp [rowPieces, rowText, intText, List.flatMap_map]

theorem toList_arrayPieces (name : String) (m : Matrix) :
    (arrayPieces name m).flatMap String.toList = arrayFront name m ++ ['\n'] := by
  have hrows : (m.rows.flatMap rowPieces).flatMap String.toList = rowsText m.rows := by
    rw [List.flatMap_assoc, rowsText]
    exact congrArg m.rows.flatMap (funext toList_rowPieces)
  rw [arrayPieces, List.flatMap_append, List.flatMap_cons, hrows, arrayFront]
  simp

theorem toList_bufferLine (sect name : String) :
    (bufferLine sect name).toList = declaration sect name ++ ['\n'] := by
  simp [bufferLine, declaration]

/-- A header is its parts, one behind the other. -/
theorem toList_header (c : Case) (sect : String) :
    (c.header sect).toList =
      arrayFront operandA c.a ++ '\n' :: (arrayFront operandB c.b ++ '\n' ::
        (arrayFront product c.expected ++ '\n' ::
          ((sizeLine c.params.size).toList ++ declarations sect workBuffers))) := by
  have hbuffers : (workBuffers.map (bufferLine sect)).flatMap String.toList
      = declarations sect workBuffers := by
    rw [List.flatMap_map, declarations]
    exact congrArg workBuffers.flatMap (funext (toList_bufferLine sect))
  rw [Case.header, String.toList_join, Case.headerPieces, List.flatMap_append, List.flatMap_append,
    List.flatMap_append, List.flatMap_cons, hbuffers, toList_arrayPieces, toList_arrayPieces,
    toList_arrayPieces]
  simp only [List.append_assoc, List.cons_append, List.nil_append]

/-! ## Arrays -/

theorem not_mem_rowText {c : Char} (hc : c ∉ ['-', ',']) (hd : c.isDigit = false)
    (row : List Int32) : c ∉ rowText row := by
  intro h
  simp only [rowText, List.mem_flatMap, List.mem_append, List.mem_singleton] at h
  obtain ⟨v, -, h | rfl⟩ := h
  · rcases mem_numeral h with rfl | h
    · exact hc List.mem_cons_self
    · exact ne_of_isDigit h hd rfl
  · exact hc (by simp)

/-- The rows of an array are made of few characters. -/
theorem not_mem_rowsText {c : Char} (hc : c ∉ ['\n', '\t', '-', ',']) (hd : c.isDigit = false)
    (rows : List (List Int32)) : c ∉ rowsText rows := by
  intro h
  simp only [rowsText, List.mem_flatMap, List.mem_cons] at h
  obtain ⟨row, -, rfl | rfl | h⟩ := h
  · exact hc (by simp)
  · exact hc (by simp)
  · exact not_mem_rowText (fun h => hc (by simp_all)) hd row h

theorem not_mem_arrayFront {c : Char} {name : String} (hname : c ∉ (arrayOpening name).toList)
    (hc : c ∉ ['\n', '\t', '-', ',', '\x7d', ';']) (hd : c.isDigit = false) (m : Matrix) :
    c ∉ arrayFront name m := by
  simp only [arrayFront, List.mem_append, not_or]
  exact ⟨hname, not_mem_rowsText (fun h => hc (by simp_all)) hd m.rows, fun h => hc (by simp_all)⟩

/-- Blanks ahead of an array's first item have no meaning. -/
theorem arrayItems_blank_append {w : List Char} (hw : allBlank w = true) (s : List Char) :
    arrayItems (w ++ s) = arrayItems s := by
  have hcomma : ',' ∉ w := fun h => Bool.noConfusion (List.all_eq_true.mp hw ',' h)
  obtain ⟨p, ps, hp, e⟩ := pieces_append_of_not_mem hcomma s
  simp only [arrayItems, hp, e, List.map_cons, trim_append_left hw]

theorem trim_numeral (i : Int) : trim (numeral i) = numeral i := by
  refine trim_eq_self (fun c h => ?_) (fun c h => ?_)
  · exact isBlank_of_mem_numeral (List.mem_of_mem_head? h)
  · exact isBlank_of_mem_numeral (List.mem_of_mem_getLast? h)

theorem arrayItems_numeral (i : Int) (s : List Char) :
    arrayItems (numeral i ++ ',' :: s) = numeral i :: arrayItems s := by
  have hcomma : ',' ∉ numeral i := by
    intro h
    rcases mem_numeral h with h | h
    · exact absurd h (by decide)
    · exact Bool.noConfusion h
  rw [arrayItems, pieces_append_cons, pieces_of_not_mem hcomma]
  simp [arrayItems, trim_numeral, numeral_ne_nil]

theorem arrayItems_rowText (row : List Int32) (s : List Char) :
    arrayItems (rowText row ++ s) = row.map (fun v => numeral v.toInt) ++ arrayItems s := by
  induction row with
  | nil => rfl
  | cons v row ih =>
    have e : rowText (v :: row) ++ s = numeral v.toInt ++ ',' :: (rowText row ++ s) := by
      simp [rowText]
    rw [e, arrayItems_numeral, ih]
    rfl

/-- The items of an array are the numerals of its elements, row by row. -/
theorem arrayItems_rowsText (rows : List (List Int32)) (s : List Char) :
    arrayItems (rowsText rows ++ s) =
      rows.flatten.map (fun v => numeral v.toInt) ++ arrayItems s := by
  induction rows with
  | nil => rfl
  | cons row rows ih =>
    have e : rowsText (row :: rows) ++ s = ['\n', '\t'] ++ (rowText row ++ (rowsText rows ++ s)) := by
      simp [rowsText]
    rw [e, arrayItems_blank_append rfl, arrayItems_rowText, ih, List.flatten_cons,
      List.map_append, List.append_assoc]

theorem readInt_numeral_toInt (v : Int32) :
    readInt (maxInt32 + 1) maxInt32 (numeral v.toInt) = .ok v.toInt := by
  refine readInt_numeral ?_ ?_
  · have := v.le_toInt
    simp only [maxInt32]
    omega
  · have := v.toInt_lt
    simp only [maxInt32]
    omega

/-- The numerals of elements are read as these elements. -/
theorem readElements_numerals (name : String) (acc : Array Int32) (vs : List Int32) :
    readElements name acc (vs.map fun v => numeral v.toInt) = .ok (acc ++ vs.toArray) := by
  induction vs generalizing acc with
  | nil => simp [readElements]
  | cons v vs ih =>
    simp only [List.map_cons, readElements, readInt_numeral_toInt, Int32.ofInt_toInt]
    rw [ih (acc.push v)]
    simp

/-- An array is read as it was written. -/
theorem readArray_arrayFront (name : String) (m : Matrix) (s : List Char) :
    readArray name (arrayFront name m ++ '\n' :: s) = .ok m.cells := by
  have hbrace : '\x7d' ∉ rowsText m.rows ++ ['\n'] := by
    simp only [List.mem_append, not_or]
    exact ⟨not_mem_rowsText (by decide) rfl m.rows, by decide⟩
  have hend : cut? ['\x7d', ';'] (rowsText m.rows ++ ['\n', '\x7d', ';', '\n'] ++ '\n' :: s)
      = some (rowsText m.rows ++ ['\n'], '\n' :: '\n' :: s) := by
    have e : rowsText m.rows ++ ['\n', '\x7d', ';', '\n'] ++ '\n' :: s
        = (rowsText m.rows ++ ['\n']) ++ (['\x7d', ';'] ++ '\n' :: '\n' :: s) := by simp
    rw [e, cut?_append_of_not_mem hbrace, cut?_sep_append]
    simp
  have hbody : arrayBody name (arrayFront name m ++ '\n' :: s) = .ok (rowsText m.rows ++ ['\n']) := by
    rw [arrayBody, arrayFront, List.append_assoc, cut?_sep_append]
    simp only [hend]
  have hlast : arrayItems ['\n'] = [] := by decide
  simp only [readArray, hbody]
  rw [arrayItems_rowsText, hlast, List.append_nil, readElements_numerals, Matrix.rows_flatten]
  simp

/-- The search for an array passes an array of another name. -/
theorem readArray_arrayFront_of_ne {name other : String}
    (hne : ∀ t, after? (arrayOpening name).toList ((arrayOpening other).toList ++ t) = none)
    (hc : 'c' ∉ (arrayOpening other).toList.tail) (m : Matrix) (s : List Char) :
    readArray name (arrayFront other m ++ '\n' :: s) = readArray name s := by
  have hopen : ∀ n, ∃ t, (arrayOpening n).toList = 'c' :: t := fun n =>
    ⟨("onst int " ++ n ++ "[] = \x7b").toList, by simp [arrayOpening]⟩
  -- An opening starts with a `c`, and of those the other array has the one that it starts with itself.
  obtain ⟨t, ht⟩ := hopen name
  obtain ⟨t', ht'⟩ := hopen other
  rw [ht'] at hc
  let behind := t' ++ (rowsText m.rows ++ ['\n', '\x7d', ';', '\n']) ++ ['\n']
  have hbehind : 'c' ∉ behind := by
    simp only [behind, List.mem_append, not_or]
    exact ⟨⟨hc, not_mem_rowsText (by decide) rfl m.rows, by decide⟩, by decide⟩
  have e : arrayFront other m ++ '\n' :: s = 'c' :: (behind ++ s) := by
    simp [arrayFront, ht', behind]
  have hnone : after? (arrayOpening name).toList ('c' :: (behind ++ s)) = none := by
    rw [← e, arrayFront, List.append_assoc]
    exact hne _
  have hcut : cut? (arrayOpening name).toList ('c' :: (behind ++ s))
      = (cut? (arrayOpening name).toList s).map fun p => ('c' :: (behind ++ p.1), p.2) := by
    rw [cut?_cons, hnone, ht]
    simp only [cut?_append_of_not_mem hbehind, Option.map_map]
    rfl
  simp only [readArray, arrayBody, e, hcut]
  cases cut? (arrayOpening name).toList s <;> rfl

/-! ## The size -/

/-- The search for the size passes whole lines that do not start with the directive. -/
theorem readSize_append_of_none {p : List Char} (hp : Closed p)
    (hnone : ∀ l ∈ lines p, after? sizeDirective (trim l) = none) (s : List Char) :
    readSize (p ++ s) = readSize s := by
  rw [readSize, readSize, lines_append_of_closed hp, List.findSome?_append,
    List.findSome?_eq_none_iff.mpr hnone, Option.none_or]

/-- The search for the size passes lines without a `#`. -/
theorem readSize_append {u : List Char} (hu : '#' ∉ u) (s : List Char) :
    readSize (u ++ '\n' :: s) = readSize s := by
  have hwhole : u ++ '\n' :: s = (u ++ ['\n']) ++ s := by simp
  rw [hwhole]
  refine readSize_append_of_none (.inr List.getLast?_concat) (fun l hl => ?_) s
  refine after?_eq_none_of_not_mem (x := '#') (by decide) fun h => ?_
  have hmem := (mem_of_mem_lines hl (mem_of_mem_trim h)).1
  simp [hu] at hmem

theorem toList_sizeLine (n : Nat) (s : List Char) :
    (sizeLine n).toList ++ s = (sizeDirective ++ digits n) ++ '\n' :: s := by
  rw [sizeLine, String.toList_append, String.toList_append, toList_toString, List.append_assoc]
  rfl

theorem not_mem_sizeLine {c : Char} (hc : c ∉ sizeDirective) (hd : c.isDigit = false) (n : Nat) :
    c ∉ sizeDirective ++ digits n := by
  rw [List.mem_append, not_or]
  exact ⟨hc, fun h => ne_of_isDigit (isDigit_of_mem_digits h) hd rfl⟩

/-- Digits are no blanks, so none is lost behind the directive. -/
theorem trim_sizeDirective {ds : List Char} (hne : ds ≠ []) (hds : ∀ d ∈ ds, d.isDigit = true) :
    trim (sizeDirective ++ ds) = sizeDirective ++ ds ∧ trim ds = ds := by
  have hlast : ∀ c ∈ ds.getLast?, isBlank c = false := fun c h =>
    isBlank_of_isDigit (hds c (List.mem_of_getLast? h))
  refine ⟨trim_eq_self (fun c h => ?_) (fun c h => ?_), trim_eq_self (fun c h => ?_) hlast⟩
  · obtain rfl : '#' = c := Option.some.inj h
    rfl
  · rw [List.getLast?_append, List.getLast?_eq_some_getLast hne] at h
    exact hlast c ((List.getLast?_eq_some_getLast hne).trans h)
  · exact isBlank_of_isDigit (hds c (List.mem_of_head? h))

/-- The size is read from its digits, on the last line or on one that others follow. -/
theorem readSize_digits {ds : List Char} (hne : ds ≠ []) (hds : ∀ d ∈ ds, d.isDigit = true)
    {s : List Char} {ls : List (List Char)} (hs : lines s = (sizeDirective ++ ds) :: ls) :
    readSize s =
      match readNat max64 ds with
      | .error f => .error (.badSize (String.ofList ds) f)
      | .ok n => if n = 0 ∨ maxSize < n then .error (.sizeOutside n) else .ok n := by
  obtain ⟨hline, hdigits⟩ := trim_sizeDirective hne hds
  rw [readSize, hs, List.findSome?_cons, hline, after?_append]
  cases hr : readNat max64 ds with
  | error f => simp only [hdigits, hr]
  | ok n => simp only [hdigits, hr]

/-- The size is read as it was written. -/
theorem readSize_sizeLine {n : Nat} (hpos : 1 ≤ n) (hmax : n ≤ maxSize) (s : List Char) :
    readSize ((sizeLine n).toList ++ s) = .ok n := by
  obtain ⟨ds, d, hd⟩ : ∃ ds d, digits n = ds ++ [d] :=
    ⟨_, _, (List.dropLast_concat_getLast (digits_ne_nil n)).symm⟩
  have hdigit : d.isDigit = true := isDigit_of_mem_digits (n := n) (by rw [hd]; simp)
  have hreturn : dropReturn (sizeDirective ++ digits n) = sizeDirective ++ digits n := by
    rw [hd, ← List.append_assoc]
    exact dropReturn_of_last (ne_of_isDigit hdigit rfl)
  have hlines : lines ((sizeLine n).toList ++ s) = (sizeDirective ++ digits n) :: lines s := by
    rw [toList_sizeLine, lines_cons (not_mem_sizeLine (by decide) rfl n), hreturn]
  rw [readSize_digits (digits_ne_nil n) (fun _ => isDigit_of_mem_digits) hlines,
    readNat_digits (Nat.le_trans hmax (by decide))]
  exact if_neg (by omega)

/-! ## Buffers -/

/-- What stands behind a section holds no second quotation mark. -/
theorem bufferMiddle_eq : ∃ t, bufferMiddle.toList = '"' :: t ∧ '"' ∉ t :=
  ⟨_, rfl, by decide⟩

/-- Whether a section holds what stands behind a section. -/
def Ambiguous (sect : String) : Prop :=
  bufferMiddle.toList <:+: sect.toList

theorem trim_declaration (sect name : String) :
    trim (declaration sect name) = declaration sect name := by
  refine trim_eq_self (fun c h => ?_) (fun c h => ?_)
  · obtain rfl : '_' = c := Option.some.inj h
    rfl
  · have e : (declaration sect name).getLast? = some ';' := by
      simp only [declaration, List.getLast?_append]
      rfl
    obtain rfl := Option.some.inj (e.symm.trans h)
    rfl

/-- The declaration of a buffer is read whatever its section is, and as it was written unless the section is
ambiguous. -/
theorem readBuffer?_declaration (sect name : String) :
    ∃ b, readBuffer? (declaration sect name) = some (.ok b) ∧
      (¬ Ambiguous sect → b = (sect, name)) := by
  obtain ⟨⟨u, v⟩, hcut⟩ := Option.isSome_iff_exists.mp
    (cut?_isSome_of_append bufferMiddle.toList sect.toList (name.toList ++ bufferClosing.toList))
  obtain ⟨hsplit, hmin⟩ := cut?_eq_some_iff.mp hcut
  have hle : u.length ≤ sect.toList.length := hmin _ _ rfl
  -- the first cut comes no later than the one meant, so what is right of it ends as a declaration does
  have hsuffix : name.toList ++ bufferClosing.toList <:+ v := by
    have hwhole : name.toList ++ bufferClosing.toList <:+ u ++ (bufferMiddle.toList ++ v) :=
      ⟨sect.toList ++ bufferMiddle.toList, by rw [← hsplit, List.append_assoc]⟩
    have hright : v <:+ u ++ (bufferMiddle.toList ++ v) :=
      ⟨u ++ bufferMiddle.toList, by rw [List.append_assoc]⟩
    refine List.suffix_of_suffix_length_le hwhole hright ?_
    have hlen := congrArg List.length hsplit
    simp only [List.length_append] at hlen ⊢
    omega
  obtain ⟨w, rfl⟩ := hsuffix
  refine ⟨(String.ofList u, String.ofList (w ++ name.toList)), ?_, fun hsect => ?_⟩
  · rw [readBuffer?, declaration, after?_append, Option.map_some]
    rw [hcut, ← List.append_assoc]
    simp only [before?_append]
  · obtain ⟨t, ht, hquote⟩ := bufferMiddle_eq
    rw [Ambiguous, ht] at hsect
    have hmeant := cut?_append_sep hquote hsect (name.toList ++ bufferClosing.toList)
    rw [← ht, hcut] at hmeant
    simp only [Option.some.injEq, Prod.mk.injEq, ← List.append_assoc,
      List.append_cancel_right_eq] at hmeant
    rw [hmeant.1, hmeant.2, String.ofList_toList, String.ofList_toList]

/-- The declarations in a section on one line are read, and as they were written unless the section is
ambiguous. -/
theorem readBuffers_declarations {sect : String} (hsect : '\n' ∉ sect.toList) :
    ∀ {names : List String}, (∀ name ∈ names, '\n' ∉ name.toList) →
      ∃ bs, readBuffers (lines (declarations sect names)) = .ok bs ∧
        (¬ Ambiguous sect → bs = names.map fun name => (sect, name))
  | [], _ => ⟨[], rfl, fun _ => rfl⟩
  | name :: names, hnames => by
    obtain ⟨bs, hbs, hmeant⟩ :=
      readBuffers_declarations hsect fun n hn => hnames n (List.mem_cons_of_mem name hn)
    obtain ⟨b, hb, hmeant'⟩ := readBuffer?_declaration sect name
    have hnl : '\n' ∉ declaration sect name := by
      simp only [declaration, List.mem_append, not_or]
      exact ⟨by decide, hsect, by decide, hnames name List.mem_cons_self, by decide⟩
    have hreturn : dropReturn (declaration sect name) = declaration sect name := by
      have e : declaration sect name = (bufferOpening.toList ++ (sect.toList ++ (bufferMiddle.toList ++
          (name.toList ++ "[SIZE][SIZE]".toList)))) ++ [';'] := by
        simp only [declaration, List.append_assoc]
        rfl
      rw [e]
      exact dropReturn_of_last (by decide)
    have hlines : lines (declarations sect (name :: names))
        = declaration sect name :: lines (declarations sect names) := by
      rw [declarations, List.flatMap_cons, List.append_assoc]
      exact (lines_cons hnl _).trans (by rw [hreturn]; rfl)
    refine ⟨b :: bs, ?_, fun h => ?_⟩
    · rw [hlines, readBuffers, trim_declaration, hb]
      simp only [hbs]
      rfl
    · rw [hmeant h, hmeant' h]
      rfl

/-- The buffers of lines are those of the first ones and those of the rest, unless the first ones are at fault. -/
theorem readBuffers_concat (ls ls' : List (List Char)) :
    readBuffers (ls ++ ls') =
      match readBuffers ls with
      | .error f => .error f
      | .ok bs => (readBuffers ls').map (bs ++ ·) := by
  induction ls with
  | nil =>
    show readBuffers ls' = (readBuffers ls').map ([] ++ ·)
    cases readBuffers ls' <;> rfl
  | cons l ls ih =>
    rw [List.cons_append, readBuffers, readBuffers, ih]
    cases readBuffer? (trim l) with
    | none => rfl
    | some r =>
      cases r with
      | error f => rfl
      | ok b =>
        cases readBuffers ls with
        | error f => rfl
        | ok bs => cases readBuffers ls' <;> rfl

/-- The search for buffers passes whole lines that do not start like a declaration. -/
theorem readBuffers_append_of_none {p : List Char} (hp : Closed p)
    (hnone : ∀ l ∈ lines p, readBuffer? (trim l) = none) (s : List Char) :
    readBuffers (lines (p ++ s)) = readBuffers (lines s) := by
  rw [lines_append_of_closed hp]
  -- Of the lines that are passed, nothing counts but that none of them declares a buffer.
  generalize lines p = ls at hnone
  induction ls with
  | nil => rfl
  | cons l ls ih =>
    rw [List.cons_append, readBuffers, hnone l List.mem_cons_self]
    exact ih fun k hk => hnone k (List.mem_cons_of_mem l hk)

/-- The search for buffers passes lines without a quotation mark. -/
theorem readBuffers_append {u : List Char} (hu : '"' ∉ u) (s : List Char) :
    readBuffers (lines (u ++ '\n' :: s)) = readBuffers (lines s) := by
  have hwhole : u ++ '\n' :: s = (u ++ ['\n']) ++ s := by simp
  rw [hwhole]
  refine readBuffers_append_of_none (.inr List.getLast?_concat) (fun l hl => ?_) s
  have hnone : after? bufferOpening.toList (trim l) = none := by
    refine after?_eq_none_of_not_mem (x := '"') (by decide) fun h => ?_
    have hmem := (mem_of_mem_lines hl (mem_of_mem_trim h)).1
    simp [hu] at hmem
  rw [readBuffer?, hnone]
  rfl

/-- Every buffer that is read was declared on some line. -/
theorem of_readBuffers {ls : List (List Char)} {bs : List (String × String)}
    (h : readBuffers ls = .ok bs) {b : String × String} (hb : b ∈ bs) :
    ∃ l ∈ ls, readBuffer? (trim l) = some (.ok b) := by
  induction ls generalizing bs with
  | nil =>
    obtain rfl := Except.ok.inj h
    exact absurd hb List.not_mem_nil
  | cons l ls ih =>
    simp only [readBuffers] at h
    split at h
    · obtain ⟨k, hk, hr⟩ := ih h hb
      exact ⟨k, List.mem_cons_of_mem l hk, hr⟩
    · cases h
    · next b' hb' =>
      cases hls : readBuffers ls with
      | error f => rw [hls] at h; cases h
      | ok bs' =>
        rw [hls] at h
        obtain rfl := Except.ok.inj h
        rcases List.mem_cons.mp hb with rfl | hb
        · exact ⟨l, List.mem_cons_self, hb'⟩
        · obtain ⟨k, hk, hr⟩ := ih hls hb
          exact ⟨k, List.mem_cons_of_mem l hk, hr⟩

/-- No section that is read from a line is ambiguous. -/
theorem of_readBuffer? {l : List Char} {b : String × String} (h : readBuffer? l = some (.ok b)) :
    (∀ c ∈ b.1.toList, c ∈ l) ∧ ¬ Ambiguous b.1 := by
  obtain ⟨rest, hrest, h⟩ := Option.map_eq_some_iff.mp h
  split at h
  · cases h
  · next sect decl hcut =>
    split at h
    · cases h
    · obtain rfl := Except.ok.inj h
      rw [Ambiguous, String.toList_ofList]
      refine ⟨fun c hc => ?_, not_infix_of_cut? (by decide) hcut⟩
      rw [after?_eq_some.mp hrest, cut?_eq_append hcut]
      exact List.mem_append_right _ (List.mem_append_left _ hc)

/-- A section that is read from a text has no newline and is not ambiguous. -/
theorem section_of_readBuffers {s : List Char} {bs : List (String × String)}
    (h : readBuffers (lines s) = .ok bs) {b : String × String} (hb : b ∈ bs) :
    '\n' ∉ b.1.toList ∧ ¬ Ambiguous b.1 := by
  obtain ⟨l, hl, hr⟩ := of_readBuffers h hb
  obtain ⟨hmem, hamb⟩ := of_readBuffer? hr
  exact ⟨fun hc => (mem_of_mem_lines hl (mem_of_mem_trim (hmem '\n' hc))).2 rfl, hamb⟩

/-! ## The whole header -/

/-- The text of the three arrays of a case. -/
def arrays (c : Case) : List Char :=
  arrayFront operandA c.a ++ '\n' :: (arrayFront operandB c.b ++ '\n' ::
    (arrayFront product c.expected ++ ['\n']))

theorem arrays_append (c : Case) (s : List Char) :
    arrays c ++ s = arrayFront operandA c.a ++ '\n' :: (arrayFront operandB c.b ++ '\n' ::
      (arrayFront product c.expected ++ '\n' :: s)) := by
  simp only [arrays, List.append_assoc, List.cons_append, List.nil_append]

/-- A header is its arrays, the line with its size and the declarations of its buffers. -/
theorem toList_header_eq (c : Case) (sect : String) :
    (c.header sect).toList =
      arrays c ++ ((sizeLine c.params.size).toList ++ declarations sect workBuffers) := by
  rw [toList_header, arrays_append]

/-- The search for the size passes the arrays. -/
theorem readSize_arrays (c : Case) (s : List Char) : readSize (arrays c ++ s) = readSize s := by
  rw [arrays_append, readSize_append (not_mem_arrayFront (by decide) (by decide) rfl _),
    readSize_append (not_mem_arrayFront (by decide) (by decide) rfl _),
    readSize_append (not_mem_arrayFront (by decide) (by decide) rfl _)]

/-- The search for buffers passes the arrays. -/
theorem readBuffers_arrays (c : Case) (s : List Char) :
    readBuffers (lines (arrays c ++ s)) = readBuffers (lines s) := by
  rw [arrays_append, readBuffers_append (not_mem_arrayFront (by decide) (by decide) rfl _),
    readBuffers_append (not_mem_arrayFront (by decide) (by decide) rfl _),
    readBuffers_append (not_mem_arrayFront (by decide) (by decide) rfl _)]

/-- The arrays are read as they were written, whatever follows them. -/
theorem readArray_arrays (c : Case) (s : List Char) :
    readArray operandA (arrays c ++ s) = .ok c.a.cells ∧
      readArray operandB (arrays c ++ s) = .ok c.b.cells ∧
      readArray product (arrays c ++ s) = .ok c.expected.cells := by
  -- Each array is looked for from the start of the text, past all the arrays ahead of it.
  rw [arrays_append]
  refine ⟨readArray_arrayFront operandA c.a _, ?_, ?_⟩
  · rw [readArray_arrayFront_of_ne (fun _ => rfl) (by decide), readArray_arrayFront]
  · rw [readArray_arrayFront_of_ne (fun _ => rfl) (by decide),
      readArray_arrayFront_of_ne (fun _ => rfl) (by decide), readArray_arrayFront]

/-- The form of errors can be changed step by step. -/
theorem mapError_bind {ε δ α β : Type} (t : ε → δ) (x : Except ε α) (f : α → Except ε β) :
    (x >>= f).mapError t = x.mapError t >>= fun a => (f a).mapError t := by
  cases x <;> rfl

/-- A text whose size and arrays can be read is read as far as its buffers can be. -/
theorem read_of_parts {s : List Char} {n : Nat} {a b e : Matrix} (hn : readSize s = .ok n)
    (ha : readMatrix n operandA s = .ok a) (hb : readMatrix n operandB s = .ok b)
    (he : readMatrix n product s = .ok e) :
    read s =
      match readBuffers (lines s) with
      | .error f => .error (.parse f)
      | .ok bs => .ok ⟨n, a, b, e, bs⟩ := by
  have hsize : (readSize s).mapError StimuliError.parse = .ok n := by rw [hn]; rfl
  simp only [read, hsize, ha, hb, he, bind, Except.bind]
  cases readBuffers (lines s) <;> rfl

/-- Behind the arrays of a case, a text with their size is read as far as its buffers can be. -/
theorem read_arrays {c : Case} {n : Nat} (hmax : n ≤ maxSize) (ha : c.a.size = n) (hb : c.b.size = n)
    (he : c.expected.size = n) {s : List Char} (hs : readSize s = .ok n) :
    read (arrays c ++ s) =
      match readBuffers (lines s) with
      | .error f => .error (.parse f)
      | .ok bs => .ok ⟨n, c.a, c.b, c.expected, bs⟩ := by
  have hmatrix : ∀ {name : String} {m : Matrix}, m.size = n →
      readArray name (arrays c ++ s) = .ok m.cells → readMatrix n name (arrays c ++ s) = .ok m := by
    rintro name m rfl h
    rw [readMatrix, h]
    exact Matrix.ofCells?_of_size hmax m.square
  obtain ⟨hA, hB, hE⟩ := readArray_arrays c s
  rw [read_of_parts ((readSize_arrays c s).trans hs) (hmatrix ha hA) (hmatrix hb hB) (hmatrix he hE),
    readBuffers_arrays]

/-- The size and the matrices of a header are read back, whatever the section of its buffers is; the lines
of the declarations decide the rest. -/
theorem read_header {c : Case} {n : Nat} (hpos : 1 ≤ n) (hmax : n ≤ maxSize)
    (hsize : c.params.size = n) (ha : c.a.size = n) (hb : c.b.size = n) (he : c.expected.size = n)
    (sect : String) :
    read (c.header sect).toList =
      match readBuffers (lines (declarations sect workBuffers)) with
      | .error f => .error (.parse f)
      | .ok bs => .ok ⟨n, c.a, c.b, c.expected, bs⟩ := by
  rw [toList_header_eq, hsize, read_arrays hmax ha hb he (readSize_sizeLine hpos hmax _), toList_sizeLine,
    readBuffers_append (not_mem_sizeLine (by decide) rfl _)]

end CoreBench.Stimuli.Header
