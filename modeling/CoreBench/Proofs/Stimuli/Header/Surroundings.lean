import CoreBench.Proofs.Stimuli.Header.Check
import CoreBench.Proofs.Stimuli.Header.Grammar

/-!
Headers with other text around them. Each part of a header is looked for from the start of the text, and the first one
counts. So what is ahead of a header is passed as long as nothing in it looks like a part, and what is behind a header
comes too late for the size and the matrices; only the buffers are looked for on every line.

What is proved:
  * `read_append_of_silent`: text in which no part starts is passed, by a header and by a text that is none;
  * `GivesSize.append`, `HoldsArray.append`: a text gives its size and holds its arrays, whatever follows it;
  * `readBuffers_eq_error_iff`: buffers are refused for the first line that starts like a declaration and is none;
  * `read_append`: a header that other text follows is read as far as the buffers in that text can be;
  * `read_surrounded`: both together.
-/

namespace CoreBench.Stimuli.Header

open CoreBench.Text

/-! ## Text ahead -/

/-- Whole lines in which no part of a header starts: none of them gives a size or declares a buffer, and no array
opens in them. -/
structure Silent (p : List Char) : Prop where
  closed : Closed p
  size : ∀ ls, Lined p ls → ∀ l ∈ ls, ∀ r, ¬ Trims l ("#define SIZE ".toList ++ r)
  buffers : ∀ ls, Lined p ls → ∀ l ∈ ls, ∀ r, ¬ Trims l ("__attribute__ ((section(\"".toList ++ r)
  arrays : ∀ name ∈ ["m_a", "m_b", "m_exp"], ¬ ("const int " ++ name ++ "[] = \x7b").toList <:+: p

/-- The opening of an array is on one line, so it cannot start in whole lines and end behind them. -/
theorem readMatrix_append_of_closed {name : String} (hname : '\n' ∉ (arrayOpening name).toList) {p : List Char}
    (hp : Closed p) (hopen : ¬ (arrayOpening name).toList <:+: p) (n : Nat) (s : List Char) :
    readMatrix n name (p ++ s) = readMatrix n name s := by
  have hbody : arrayBody name (p ++ s) = arrayBody name s := by
    rcases hp with rfl | hlast
    · rfl
    · rw [arrayBody, arrayBody, cut?_append_of_getLast? hname hlast hopen]
      cases cut? (arrayOpening name).toList s <;> rfl
  rw [readMatrix, readMatrix, readArray, readArray, hbody]

/-- Text in which no part of a header starts is passed. -/
theorem read_append_of_silent {p : List Char} (hp : Silent p) (s : List Char) : read (p ++ s) = read s := by
  have hlined : Lined p (lines p) := lined_iff.mpr rfl
  have hsize : readSize (p ++ s) = readSize s :=
    readSize_append_of_none hp.closed (fun l hl => after?_trim_eq_none_iff.mpr (hp.size _ hlined l hl)) s
  have hbuffers : readBuffers (lines (p ++ s)) = readBuffers (lines s) :=
    readBuffers_append_of_none hp.closed (fun l hl => readBuffer?_eq_none_iff.mpr (hp.buffers _ hlined l hl)) s
  have ha : ∀ n, readMatrix n operandA (p ++ s) = readMatrix n operandA s := fun n =>
    readMatrix_append_of_closed (by decide) hp.closed (hp.arrays "m_a" (by decide)) n s
  have hb : ∀ n, readMatrix n operandB (p ++ s) = readMatrix n operandB s := fun n =>
    readMatrix_append_of_closed (by decide) hp.closed (hp.arrays "m_b" (by decide)) n s
  have he : ∀ n, readMatrix n product (p ++ s) = readMatrix n product s := fun n =>
    readMatrix_append_of_closed (by decide) hp.closed (hp.arrays "m_exp" (by decide)) n s
  simp only [read, hsize, ha, hb, he, hbuffers]

/-! ## Text behind -/

/-- The first line that gives a size is still the first one. -/
theorem GivesSize.append {t : List Char} {n : Nat} (h : GivesSize t n) (ht : Closed t) (s : List Char) :
    GivesSize (t ++ s) n := by
  obtain ⟨passed, line, others, rest, literal, hlined, hgives⟩ := h
  have hlines : Lined (t ++ s) (passed ++ line :: (others ++ lines s)) := by
    rw [lined_iff, lines_append_of_closed ht, lined_iff.mp hlined, List.append_assoc, List.cons_append]
  exact ⟨passed, line, others ++ lines s, rest, literal, hlines, hgives⟩

/-- The first opening of an array and the nearest end behind it are where they were. -/
theorem HoldsArray.append {t : List Char} {n : Nat} {name : String} {m : Matrix} (h : HoldsArray t n name m)
    (s : List Char) : HoldsArray (t ++ s) n name m := by
  obtain ⟨hsize, hcells, front, rest, body, behind, ps, hopen, hend, hparts⟩ := h
  have hopen' := firstCut_iff.mpr (cut?_append_right (firstCut_iff.mp hopen) s)
  have hend' := firstCut_iff.mpr (cut?_append_right (firstCut_iff.mp hend) s)
  exact ⟨hsize, hcells, front, rest ++ s, body, behind ++ s, ps, hopen', hend', hparts⟩

/-- A header that other text follows has its size and its matrices; the buffers in that text decide the rest. -/
theorem read_append {t : List Char} (ht : Closed t) {h : Header} (hread : read t = .ok h) (s : List Char) :
    read (t ++ s) =
      match readBuffers (lines s) with
      | .error f => .error (.parse f)
      | .ok bs => .ok { h with buffers := h.buffers ++ bs } := by
  rcases read_cases t with ⟨f, hf⟩ | ⟨n, name, e, -, -, he⟩ | ⟨h', hok, hsize, ha, hb, hexpected, hbuffers⟩
  · rw [hread] at hf
    cases hf
  · rw [hread] at he
    cases he
  · obtain rfl := Except.ok.inj (hread.symm.trans hok)
    have hmax : h.size ≤ maxSize := (readSize_le hsize).2
    have hstays : ∀ {name : String} {m : Matrix}, readMatrix h.size name t = .ok m →
        readMatrix h.size name (t ++ s) = .ok m := fun hm =>
      (readMatrix_eq_ok_iff hmax).mpr (((readMatrix_eq_ok_iff hmax).mp hm).append s)
    have hsize' : readSize (t ++ s) = .ok h.size := readSize_eq_ok_iff.mpr ((readSize_eq_ok_iff.mp hsize).append ht s)
    rw [read_of_parts hsize' (hstays ha) (hstays hb) (hstays hexpected), lines_append_of_closed ht,
      readBuffers_concat, hbuffers]
    cases readBuffers (lines s) <;> rfl

/-! ## Lines at fault -/

/-- A line that starts like the declaration of a buffer and is none: there is nothing between a section and a name, or
what is behind that does not end as a declaration does. `shown` is the line without the blanks around it. -/
def Malformed (l shown : List Char) : Prop :=
  ∃ rest, Trims l shown ∧ shown = "__attribute__ ((section(\"".toList ++ rest ∧
    ∀ sect name, ¬ FirstCut "\"))) int ".toList rest sect (name ++ "[SIZE][SIZE];".toList)

/-- The first malformed line, with declarations and lines of other kinds ahead of it. -/
def FirstMalformed (ls : List (List Char)) (shown : List Char) : Prop :=
  ∃ passed l others bs, ls = passed ++ l :: others ∧ Declares passed bs ∧ Malformed l shown

theorem readBuffer?_eq_error_iff {l : List Char} {f : HeaderFault} :
    readBuffer? (trim l) = some (.error f) ↔ ∃ shown, Malformed l shown ∧ f = .badBuffer (String.ofList shown) := by
  constructor
  · intro h
    obtain ⟨rest, hrest, -⟩ := Option.map_eq_some_iff.mp h
    have hline := after?_eq_some.mp hrest
    refine ⟨trim l, ⟨rest, trims_trim l, hline, fun sect name hcut => ?_⟩, readBuffer?_error h⟩
    -- A section and a name would make it a declaration.
    have hok : readBuffer? (trim l) = some (.ok (String.ofList sect, String.ofList name)) := by
      refine readBuffer?_eq_ok_iff.mpr ⟨rest, after?_trim_eq_some_iff.mp hrest, ?_⟩
      rw [@String.toList_ofList sect, @String.toList_ofList name]
      exact hcut
    rw [h] at hok
    cases hok
  · rintro ⟨shown, ⟨rest, htrims, rfl, hnone⟩, rfl⟩
    cases hr : readBuffer? (trim l) with
    | none => exact absurd htrims (readBuffer?_eq_none_iff.mp hr rest)
    | some r =>
      cases r with
      | error f => rw [readBuffer?_error hr, trims_iff.mp htrims]
      | ok b =>
        obtain ⟨rest', htrims', hcut⟩ := readBuffer?_eq_ok_iff.mp hr
        have hrest : rest' = rest := by
          have hsame := (trims_iff.mp htrims').symm.trans (trims_iff.mp htrims)
          exact List.append_cancel_left hsame
        subst hrest
        exact absurd hcut (hnone _ _)

/-- Buffers are refused for the first malformed line, and for no other. -/
theorem readBuffers_eq_error_iff {ls : List (List Char)} {f : HeaderFault} :
    readBuffers ls = .error f ↔ ∃ shown, FirstMalformed ls shown ∧ f = .badBuffer (String.ofList shown) := by
  constructor
  · intro h
    induction ls with
    | nil => cases h
    | cons l ls ih =>
      -- A line that is not at fault goes ahead of the first one that is.
      have hbehind : ∀ {b : List (String × String)},
          (∀ {passed bs}, Declares passed bs → Declares (l :: passed) (b ++ bs)) → readBuffers ls = .error f →
          ∃ shown, FirstMalformed (l :: ls) shown ∧ f = .badBuffer (String.ofList shown) := by
        intro b hl hls
        obtain ⟨shown, ⟨passed, k, others, bs, rfl, hpassed, hk⟩, hf⟩ := ih hls
        exact ⟨shown, ⟨l :: passed, k, others, b ++ bs, rfl, hl hpassed, hk⟩, hf⟩
      rw [readBuffers] at h
      split at h
      · next hnone => exact hbehind (b := []) (fun hp => .other (readBuffer?_eq_none_iff.mp hnone) hp) h
      · next g hg =>
        obtain rfl := Except.error.inj h
        obtain ⟨shown, hl, hf⟩ := readBuffer?_eq_error_iff.mp hg
        exact ⟨shown, ⟨[], l, ls, [], rfl, .nil, hl⟩, hf⟩
      · next b hb =>
        obtain ⟨rest, hline, hcut⟩ := readBuffer?_eq_ok_iff.mp hb
        refine hbehind (b := [b]) (fun hp => .buffer hline hcut hp) ?_
        cases hls : readBuffers ls with
        | error g => rw [hls] at h; exact congrArg Except.error (Except.error.inj h)
        | ok bs => rw [hls] at h; cases h
  · rintro ⟨shown, ⟨passed, l, others, bs, rfl, hpassed, hl⟩, rfl⟩
    have hfault := readBuffer?_eq_error_iff.mpr ⟨shown, hl, rfl⟩
    rw [readBuffers_concat, readBuffers_eq_ok_iff.mpr hpassed, readBuffers, hfault]
    rfl

/-! ## Text on both sides -/

/-- **Other text does not disturb a header.** Whole lines in which no part of a header starts can stand ahead of any
text: it is read, or refused, as without them. Behind a header that ends with its line any text can stand: the size
and the matrices stay, and the buffers that the text declares come behind those of the header; or the first line of it
that starts like a declaration and is none is at fault. -/
theorem read_surrounded :
    (∀ p t, Silent p → read (p ++ t) = read t) ∧
    ∀ t h s ls, Closed t → read t = .ok h → Lined s ls →
      (∀ bs, Declares ls bs → read (t ++ s) = .ok { h with buffers := h.buffers ++ bs }) ∧
      (∀ line, FirstMalformed ls line → read (t ++ s) = .error (.parse (.badBuffer (String.ofList line)))) ∧
      ((∃ bs, Declares ls bs) ∨ ∃ line, FirstMalformed ls line) ∧
      ∀ h', read (t ++ s) = .ok h' → h'.size = h.size ∧ h'.a = h.a ∧ h'.b = h.b ∧ h'.expected = h.expected := by
  refine ⟨fun p t hp => read_append_of_silent hp t, fun t h s ls ht hread hlined => ?_⟩
  have hboth := read_append ht hread s
  rw [lined_iff.mp hlined] at hboth
  refine ⟨fun bs hbs => ?_, fun line hline => ?_, ?_, fun h' hok => ?_⟩
  · rw [hboth, readBuffers_eq_ok_iff.mpr hbs]
  · rw [hboth, readBuffers_eq_error_iff.mpr ⟨line, hline, rfl⟩]
  · cases hls : readBuffers ls with
    | ok bs => exact .inl ⟨bs, readBuffers_eq_ok_iff.mp hls⟩
    | error f =>
      obtain ⟨line, hline, -⟩ := readBuffers_eq_error_iff.mp hls
      exact .inr ⟨line, hline⟩
  · rw [hboth] at hok
    split at hok
    · cases hok
    · obtain rfl := Except.ok.inj hok
      exact ⟨rfl, rfl, rfl, rfl⟩

/-- A header of one cell behind a comment, and behind it another size, another array and a buffer, or a line that is at
fault. -/
theorem read_surrounded_overruled :
    let p := "// by hand\n\n".toList
    let t := "const int m_a[] = \x7b3\x7d;const int m_b[] = \x7b2\x7d;const int m_exp[] = \x7b6\x7d;\n#define SIZE 1\n".toList
    let h : Header := ⟨1, ⟨1, #[3], rfl⟩, ⟨1, #[2], rfl⟩, ⟨1, #[6], rfl⟩, []⟩
    let s := "#define SIZE 2\nconst int m_a[] = \x7b5\x7d;\n__attribute__ ((section(\"x\"))) int y[SIZE][SIZE];".toList
    let spoilt := "__attribute__ ((section(\"x\"))) int y;".toList
    (Silent p ∧ Closed t ∧ read t = .ok h ∧ Lined s (lines s) ∧ Declares (lines s) [("x", "y")] ∧
      Lined spoilt [spoilt] ∧ FirstMalformed [spoilt] spoilt) ∧
    read (p ++ (t ++ s)) = .ok { h with buffers := [("x", "y")] } ∧
      read (p ++ (t ++ spoilt)) = .error (.parse (.badBuffer (String.ofList spoilt))) := by
  intro p t h s spoilt
  have hsilent : Silent p := by
    have hlines : ∀ l ∈ lines p, after? sizeDirective (trim l) = none ∧ readBuffer? (trim l) = none := by decide
    refine ⟨.inr rfl, fun ls hls l hl => ?_, fun ls hls l hl => ?_, ?_⟩
    · exact after?_trim_eq_none_iff.mp (hlines l (hls.lines_eq ▸ hl)).1
    · exact readBuffer?_eq_none_iff.mp (hlines l (hls.lines_eq ▸ hl)).2
    · simp only [← occursIn_iff]
      decide
  have hread : read t = .ok h := rfl
  have hlined : Lined s (lines s) := lined_iff.mpr rfl
  have hdeclares : Declares (lines s) [("x", "y")] := readBuffers_eq_ok_iff.mp rfl
  have hspoilt : Lined spoilt [spoilt] := lined_iff.mpr (by decide)
  have hfirst : FirstMalformed [spoilt] spoilt := by
    obtain ⟨shown, hshown, hf⟩ := readBuffers_eq_error_iff.mp
      (show readBuffers [spoilt] = .error (.badBuffer (String.ofList spoilt)) from rfl)
    rwa [← String.ofList_injective (HeaderFault.badBuffer.inj hf)] at hshown
  obtain ⟨hahead, hbehind⟩ := read_surrounded
  refine ⟨⟨hsilent, .inr rfl, hread, hlined, hdeclares, hspoilt, hfirst⟩, ?_, ?_⟩
  · rw [hahead p _ hsilent]
    exact (hbehind t h s _ (.inr rfl) hread hlined).1 _ hdeclares
  · rw [hahead p _ hsilent]
    exact (hbehind t h spoilt _ (.inr rfl) hread hspoilt).2.1 _ hfirst

end CoreBench.Stimuli.Header
