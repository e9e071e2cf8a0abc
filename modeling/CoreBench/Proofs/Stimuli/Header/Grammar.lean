import CoreBench.Proofs.Stimuli.Header.Layout
import CoreBench.Proofs.Text.Parts

/-!
The grammar of headers. It says which texts are headers, and of what, by the parts that a text is made of: the first
line that gives a size, the first place where each array opens and the nearest one where it ends, and the lines that
declare buffers. Nothing in it searches, trims or counts; it reads what is written as it stands.

What is proved:
  * `readSize_eq_ok_iff`, `readMatrix_eq_ok_iff`, `readBuffers_eq_ok_iff`: each part is read exactly where the grammar
    has it, and as the grammar says;
  * `read_eq_ok_iff_spells`: a text is read as a header exactly if it spells that header.
-/

namespace CoreBench.Stimuli.Header

open CoreBench.Text

/-! ## The grammar -/

/-- The size that a text gives: the first of its lines that start with the directive goes on with a literal of it. -/
def GivesSize (s : List Char) (n : Nat) : Prop :=
  ∃ passed line others rest literal,
    Lined s (passed ++ line :: others) ∧
    (∀ l ∈ passed, ∀ r, ¬ Trims l ("#define SIZE ".toList ++ r)) ∧
    Trims line ("#define SIZE ".toList ++ rest) ∧ Trims rest literal ∧
    NaturalLiteral literal n ∧ 1 ≤ n ∧ n ≤ maxSize

/-- The elements that pieces spell, in order: a piece has blanks only, or a literal with blanks around it. -/
inductive Elements : List (List Char) → List Int32 → Prop
  | nil : Elements [] []
  | blank {p : List Char} {ps : List (List Char)} {vs : List Int32} :
      allBlank p = true → Elements ps vs → Elements (p :: ps) vs
  | literal {p t : List Char} {ps : List (List Char)} {v : Int32} {vs : List Int32} :
      Trims p t → IntegerLiteral t v.toInt → Elements ps vs → Elements (p :: ps) (v :: vs)

/-- A matrix in the array of a name: it stands between the first opening of the array and the nearest end behind that,
its `size * size` elements row by row, with commas between them. -/
def HoldsArray (s : List Char) (size : Nat) (name : String) (m : Matrix) : Prop :=
  m.size = size ∧ m.cells.size = size * size ∧
    ∃ front rest body behind ps,
      FirstCut ("const int " ++ name ++ "[] = \x7b").toList s front rest ∧
      FirstCut "\x7d;".toList rest body behind ∧
      Parted ',' body ps ∧ Elements ps m.cells.toList

/-- The buffers that lines declare, in order, each as its section and its name. No line may start like a declaration
and not be one. -/
inductive Declares : List (List Char) → List (String × String) → Prop
  | nil : Declares [] []
  | other {l : List Char} {ls : List (List Char)} {bs : List (String × String)} :
      (∀ r, ¬ Trims l ("__attribute__ ((section(\"".toList ++ r)) → Declares ls bs → Declares (l :: ls) bs
  | buffer {l rest : List Char} {ls : List (List Char)} {bs : List (String × String)} {sect name : String} :
      Trims l ("__attribute__ ((section(\"".toList ++ rest) →
      FirstCut "\"))) int ".toList rest sect.toList (name.toList ++ "[SIZE][SIZE];".toList) →
      Declares ls bs → Declares (l :: ls) ((sect, name) :: bs)

/-- A text that spells a header. -/
structure Spells (s : List Char) (h : Header) : Prop where
  size : GivesSize s h.size
  a : HoldsArray s h.size "m_a" h.a
  b : HoldsArray s h.size "m_b" h.b
  expected : HoldsArray s h.size "m_exp" h.expected
  buffers : ∃ ls, Lined s ls ∧ Declares ls h.buffers

/-! ## The size -/

/-- What follows `p` on a line, blanks aside. -/
theorem after?_trim_eq_some_iff {p l r : List Char} : after? p (trim l) = some r ↔ Trims l (p ++ r) := by
  rw [after?_eq_some, trims_iff]

theorem after?_trim_eq_none_iff {p l : List Char} : after? p (trim l) = none ↔ ∀ r, ¬ Trims l (p ++ r) := by
  rw [Option.eq_none_iff_forall_ne_some]
  exact forall_congr' fun r => not_congr after?_trim_eq_some_iff

/-- A size is read from what follows the directive where it is first. -/
theorem readSize_of_findSome? {s v : List Char} {n : Nat}
    (hfirst : (lines s).findSome? (fun l => after? sizeDirective (trim l)) = some v) :
    readSize s = .ok n ↔ NaturalLiteral (trim v) n ∧ 1 ≤ n ∧ n ≤ maxSize := by
  have hbound : maxSize ≤ max64 := by decide
  rw [readSize, hfirst]
  constructor
  · intro h
    split at h
    · cases h
    · next v' hv' =>
      obtain rfl := Option.some.inj hv'
      split at h
      · cases h
      · next m hm =>
        split at h
        · cases h
        · next hsize =>
          obtain rfl := Except.ok.inj h
          exact ⟨(readNat_eq_ok_iff.mp hm).1, by omega, by omega⟩
  · rintro ⟨hliteral, hpos, hmax⟩
    have hread : readNat max64 (trim v) = .ok n := readNat_eq_ok_iff.mpr ⟨hliteral, Nat.le_trans hmax hbound⟩
    simp only [hread]
    exact if_neg (by omega)

theorem readSize_eq_ok_iff {s : List Char} {n : Nat} : readSize s = .ok n ↔ GivesSize s n := by
  constructor
  · intro h
    cases hfirst : (lines s).findSome? (fun l => after? sizeDirective (trim l)) with
    | none =>
      rw [readSize, hfirst] at h
      cases h
    | some v =>
      obtain ⟨hliteral, hpos, hmax⟩ := (readSize_of_findSome? hfirst).mp h
      obtain ⟨passed, line, others, hlines, hline, hpassed⟩ := List.findSome?_eq_some_iff.mp hfirst
      exact ⟨passed, line, others, v, trim v, lined_iff.mpr hlines,
        fun l hl => after?_trim_eq_none_iff.mp (hpassed l hl), after?_trim_eq_some_iff.mp hline,
        trims_trim v, hliteral, hpos, hmax⟩
  · rintro ⟨passed, line, others, rest, literal, hlined, hpassed, hline, htrims, hliteral, hpos, hmax⟩
    have hfirst : (lines s).findSome? (fun l => after? sizeDirective (trim l)) = some rest := by
      refine List.findSome?_eq_some_iff.mpr ⟨passed, line, others, lined_iff.mp hlined, ?_, fun l hl => ?_⟩
      · exact after?_trim_eq_some_iff.mpr hline
      · exact after?_trim_eq_none_iff.mpr (hpassed l hl)
    rw [readSize_of_findSome? hfirst, trims_iff.mp htrims]
    exact ⟨hliteral, hpos, hmax⟩

/-! ## Arrays -/

/-- What is read as an element are the literals of integers of 32 bits. -/
theorem readInt_eq_ok_iff_int32 {t : List Char} {i : Int} :
    readInt (maxInt32 + 1) maxInt32 t = .ok i ↔ ∃ v : Int32, IntegerLiteral t v.toInt ∧ v.toInt = i := by
  rw [readInt_eq_ok_iff]
  constructor
  · rintro ⟨hliteral, hlo, hhi⟩
    have hv : (Int32.ofInt i).toInt = i := by
      simp only [maxInt32] at hlo hhi
      exact Int32.toInt_ofInt_of_le (by omega) (by omega)
    exact ⟨Int32.ofInt i, hv.symm ▸ hliteral, hv⟩
  · rintro ⟨v, hliteral, rfl⟩
    have hlo := v.le_toInt
    have hhi := v.toInt_lt
    refine ⟨hliteral, ?_, ?_⟩ <;> simp only [maxInt32] <;> omega

/-- What pieces with nothing but elements in them are read as. -/
theorem Elements.readElements {ps : List (List Char)} {vs : List Int32} (h : Elements ps vs) (name : String)
    (acc : Array Int32) :
    readElements name acc ((ps.map trim).filter (· ≠ [])) = .ok (acc ++ vs.toArray) := by
  induction h generalizing acc with
  | nil => simp [Header.readElements]
  | @blank p ps vs hblank _ ih =>
    have hp : trim p = [] := trim_eq_nil_iff.mpr hblank
    rw [List.map_cons, List.filter_cons_of_neg (by simp [hp])]
    exact ih acc
  | @literal p t ps v vs htrims hliteral _ ih =>
    have hp : trim p = t := trims_iff.mp htrims
    have hread : readInt (maxInt32 + 1) maxInt32 t = .ok v.toInt :=
      readInt_eq_ok_iff_int32.mpr ⟨v, hliteral, rfl⟩
    rw [List.map_cons, List.filter_cons_of_pos (by simpa [hp] using hliteral.ne_nil), hp, Header.readElements,
      hread]
    simp only [Int32.ofInt_toInt]
    rw [ih (acc.push v)]
    simp

/-- Pieces that are read have nothing but elements in them. -/
theorem elements_of_readElements {name : String} {ps : List (List Char)} {acc cells : Array Int32}
    (h : readElements name acc ((ps.map trim).filter (· ≠ [])) = .ok cells) :
    ∃ vs, Elements ps vs ∧ cells = acc ++ vs.toArray := by
  induction ps generalizing acc with
  | nil =>
    obtain rfl := Except.ok.inj h
    exact ⟨[], .nil, by simp⟩
  | cons p ps ih =>
    by_cases hp : trim p = []
    · rw [List.map_cons, List.filter_cons_of_neg (by simp [hp])] at h
      obtain ⟨vs, hvs, hcells⟩ := ih h
      exact ⟨vs, .blank (trim_eq_nil_iff.mp hp) hvs, hcells⟩
    · rw [List.map_cons, List.filter_cons_of_pos (by simpa using hp), readElements] at h
      split at h
      · cases h
      · next i hi =>
        obtain ⟨v, hliteral, rfl⟩ := readInt_eq_ok_iff_int32.mp hi
        obtain ⟨vs, hvs, hcells⟩ := ih h
        refine ⟨v :: vs, .literal (trims_trim p) hliteral hvs, ?_⟩
        rw [hcells, Int32.ofInt_toInt]
        simp

theorem readArray_eq_ok_iff {name : String} {s : List Char} {cells : Array Int32} :
    readArray name s = .ok cells ↔
      ∃ front rest body behind ps,
        FirstCut ("const int " ++ name ++ "[] = \x7b").toList s front rest ∧
        FirstCut "\x7d;".toList rest body behind ∧ Parted ',' body ps ∧ Elements ps cells.toList := by
  constructor
  · intro h
    rw [readArray] at h
    split at h
    · cases h
    · next body hbody =>
      obtain ⟨vs, hvs, hcells⟩ := elements_of_readElements h
      rw [arrayBody] at hbody
      split at hbody
      · cases hbody
      · next front rest hopen =>
        split at hbody
        · cases hbody
        · next body' behind hend =>
          obtain rfl := Except.ok.inj hbody
          refine ⟨front, rest, body', behind, pieces ',' body', firstCut_iff.mpr hopen, firstCut_iff.mpr hend,
            parted_iff.mpr rfl, ?_⟩
          rwa [hcells, Array.empty_append, List.toList_toArray]
  · rintro ⟨front, rest, body, behind, ps, hopen, hend, hparts, helements⟩
    have hbody : arrayBody name s = .ok body := by
      have hend' : cut? ['\x7d', ';'] rest = some (body, behind) := firstCut_iff.mp hend
      have hopen' : cut? (arrayOpening name).toList s = some (front, rest) := firstCut_iff.mp hopen
      rw [arrayBody, hopen']
      simp only [hend']
    simp only [readArray, hbody]
    rw [arrayItems, parted_iff.mp hparts, helements.readElements name #[], Array.empty_append,
      Array.toArray_toList]

theorem readMatrix_eq_ok_iff {size : Nat} (hsize : size ≤ maxSize) {name : String} {s : List Char} {m : Matrix} :
    readMatrix size name s = .ok m ↔ HoldsArray s size name m := by
  constructor
  · intro h
    rw [readMatrix] at h
    split at h
    · cases h
    · next cells hcells =>
      obtain ⟨rfl, rfl⟩ := Matrix.of_ofCells? h
      exact ⟨rfl, m.square, readArray_eq_ok_iff.mp hcells⟩
  · rintro ⟨rfl, -, harray⟩
    rw [readMatrix, readArray_eq_ok_iff.mpr harray]
    exact Matrix.ofCells?_of_size hsize m.square

/-! ## Buffers -/

theorem readBuffer?_eq_none_iff {l : List Char} :
    readBuffer? (trim l) = none ↔ ∀ r, ¬ Trims l ("__attribute__ ((section(\"".toList ++ r) := by
  rw [readBuffer?, Option.map_eq_none_iff]
  exact after?_trim_eq_none_iff

theorem readBuffer?_eq_ok_iff {l : List Char} {sect name : String} :
    readBuffer? (trim l) = some (.ok (sect, name)) ↔
      ∃ rest, Trims l ("__attribute__ ((section(\"".toList ++ rest) ∧
        FirstCut "\"))) int ".toList rest sect.toList (name.toList ++ "[SIZE][SIZE];".toList) := by
  rw [readBuffer?, Option.map_eq_some_iff]
  constructor
  · rintro ⟨rest, hrest, h⟩
    refine ⟨rest, after?_trim_eq_some_iff.mp hrest, ?_⟩
    split at h
    · cases h
    · next u decl hmiddle =>
      split at h
      · cases h
      · next v hclosing =>
        obtain ⟨rfl, rfl⟩ := Prod.mk.inj (Except.ok.inj h)
        obtain rfl := before?_eq_some.mp hclosing
        rw [@String.toList_ofList u, @String.toList_ofList v]
        exact firstCut_iff.mpr hmiddle
  · rintro ⟨rest, hline, hcut⟩
    refine ⟨rest, after?_trim_eq_some_iff.mpr hline, ?_⟩
    have hmiddle : cut? bufferMiddle.toList rest = some (sect.toList, name.toList ++ bufferClosing.toList) :=
      firstCut_iff.mp hcut
    have hclosing : before? bufferClosing.toList (name.toList ++ bufferClosing.toList) = some name.toList :=
      before?_append _ _
    simp only [hmiddle, hclosing, String.ofList_toList]

theorem readBuffers_eq_ok_iff {ls : List (List Char)} {bs : List (String × String)} :
    readBuffers ls = .ok bs ↔ Declares ls bs := by
  constructor
  · intro h
    induction ls generalizing bs with
    | nil =>
      obtain rfl := Except.ok.inj h
      exact .nil
    | cons l ls ih =>
      rw [readBuffers] at h
      split at h
      · next hnone => exact .other (readBuffer?_eq_none_iff.mp hnone) (ih h)
      · cases h
      · next b hb =>
        cases hls : readBuffers ls with
        | error f =>
          rw [hls] at h
          cases h
        | ok bs' =>
          rw [hls] at h
          obtain rfl := Except.ok.inj h
          obtain ⟨rest, hline, hcut⟩ := readBuffer?_eq_ok_iff.mp hb
          exact .buffer hline hcut (ih hls)
  · intro h
    induction h with
    | nil => rfl
    | other hother _ ih => rw [readBuffers, readBuffer?_eq_none_iff.mpr hother, ih]
    | buffer hline hcut _ ih =>
      rw [readBuffers, readBuffer?_eq_ok_iff.mpr ⟨_, hline, hcut⟩]
      simp only [ih]
      rfl

/-! ## Headers -/

/-- A text is read part by part, and the first part that is refused is at fault. -/
theorem read_cases (s : List Char) :
    (∃ f, read s = .error (.parse f)) ∨
    (∃ n name e, readSize s = .ok n ∧ readMatrix n name s = .error e ∧ read s = .error e) ∨
    ∃ h, read s = .ok h ∧ readSize s = .ok h.size ∧ readMatrix h.size operandA s = .ok h.a ∧
      readMatrix h.size operandB s = .ok h.b ∧ readMatrix h.size product s = .ok h.expected ∧
      readBuffers (lines s) = .ok h.buffers := by
  cases hn : readSize s with
  | error f =>
    have hsize : (readSize s).mapError StimuliError.parse = .error (.parse f) := by rw [hn]; rfl
    exact .inl ⟨f, by simp only [read, hsize, bind, Except.bind]⟩
  | ok n =>
    have hsize : (readSize s).mapError StimuliError.parse = .ok n := by rw [hn]; rfl
    cases ha : readMatrix n operandA s with
    | error e => exact .inr (.inl ⟨n, _, e, rfl, ha, by simp only [read, hsize, ha, bind, Except.bind]⟩)
    | ok a =>
      cases hb : readMatrix n operandB s with
      | error e => exact .inr (.inl ⟨n, _, e, rfl, hb, by simp only [read, hsize, ha, hb, bind, Except.bind]⟩)
      | ok b =>
        cases he : readMatrix n product s with
        | error e => exact .inr (.inl ⟨n, _, e, rfl, he, by simp only [read, hsize, ha, hb, he, bind, Except.bind]⟩)
        | ok expected =>
          have hread := read_of_parts hn ha hb he
          cases hbs : readBuffers (lines s) with
          | error f => exact .inl ⟨f, by rw [hread, hbs]⟩
          | ok bs => exact .inr (.inr ⟨⟨n, a, b, expected, bs⟩, by rw [hread, hbs], rfl, ha, hb, he, rfl⟩)

/-- **A text is read as a header exactly if it spells that header.** -/
theorem read_eq_ok_iff_spells (s : List Char) (h : Header) : read s = .ok h ↔ Spells s h := by
  constructor
  · intro hread
    rcases read_cases s with ⟨f, hf⟩ | ⟨n, name, e, -, -, he⟩ | ⟨h', hh, hsize, ha, hb, he, hbs⟩
    · rw [hread] at hf
      cases hf
    · rw [hread] at he
      cases he
    · obtain rfl := Except.ok.inj (hread.symm.trans hh)
      have hmax : h.size ≤ maxSize := (readSize_le hsize).2
      exact ⟨readSize_eq_ok_iff.mp hsize, (readMatrix_eq_ok_iff hmax).mp ha, (readMatrix_eq_ok_iff hmax).mp hb,
        (readMatrix_eq_ok_iff hmax).mp he, lines s, lined_iff.mpr rfl, readBuffers_eq_ok_iff.mp hbs⟩
  · rintro ⟨hgives, ha, hb, he, ls, hlined, hbs⟩
    have hsize : readSize s = .ok h.size := readSize_eq_ok_iff.mpr hgives
    have hmax : h.size ≤ maxSize := (readSize_le hsize).2
    rw [read_of_parts hsize ((readMatrix_eq_ok_iff hmax).mpr ha) ((readMatrix_eq_ok_iff hmax).mpr hb)
      ((readMatrix_eq_ok_iff hmax).mpr he), lined_iff.mp hlined, readBuffers_eq_ok_iff.mpr hbs]

end CoreBench.Stimuli.Header
