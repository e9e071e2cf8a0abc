import CoreBench.Proofs.Json.Record
import CoreBench.Proofs.Text.Parts
import CoreBench.Trace.Report

/-!
Reports read back. A report tells each count next to its name, in lines of text or as a member of an object, so the
counts are read from it by these names, in either format and up to the largest number of 64 bits.

What is proved:
  * `lined_text`: a report in text has three lines, each a label and the digits of its count;
  * `read_json`: a report in JSON is the object of the counts;
  * `report_readable`: both formats lose nothing, and tell the same.
-/

namespace CoreBench.Trace.Counts

open CoreBench.Text

/-- Counts of 64 bits each. -/
def Fits (c : Counts) : Prop :=
  ∀ w, c.get w ≤ max64

/-- The number behind a label in a line. -/
def numberBehind? (label : String) (line : List Char) : Option Nat :=
  (after? label.toList line).bind fun ds => (readNat max64 ds).toOption

/-- The counts that a text tells in three lines, each behind its label. -/
def ofText? (s : List Char) : Option Counts :=
  match lines s with
  | [w, h, b] => do
    let sw ← numberBehind? "sw: " w
    let sh ← numberBehind? "sh: " h
    let sb ← numberBehind? "sb: " b
    some ⟨sw, sh, sb⟩
  | _ => none

/-! ## Lines of text -/

/-- A label and a number behind it. -/
def labelled (label : String) (n : Nat) : List Char :=
  label.toList ++ digits n

theorem numberBehind?_labelled (label : String) {n : Nat} (h : n ≤ max64) :
    numberBehind? label (labelled label n) = some n := by
  rw [numberBehind?, labelled, after?_append, Option.bind_some, readNat_digits h]
  rfl

/-- A label and a number make one line, unless the label has a newline. -/
theorem lined_labelled {label : String} (hlabel : '\n' ∉ label.toList) (n : Nat) {s : List Char}
    {ls : List (List Char)} (h : Lined s ls) : Lined (labelled label n ++ '\n' :: s) (labelled label n :: ls) := by
  refine .closed ?_ ?_ h
  · rw [labelled, List.mem_append, not_or]
    exact ⟨hlabel, fun hn => absurd (isDigit_of_mem_digits hn) (by decide)⟩
  · rw [labelled, List.getLast?_append_of_ne_nil _ (digits_ne_nil n)]
    exact fun hlast => absurd (isDigit_of_mem_digits (List.mem_of_getLast? hlast)) (by decide)

theorem line_eq (c : Counts) (w : Width) : c.line w = labelled (w.mnemonic ++ ": ") (c.get w) ++ ['\n'] := by
  have hseparator : ": ".toList = [':', ' '] := by decide
  rw [line, labelled, String.toList_append, hseparator]
  simp

theorem lined_text (c : Counts) :
    Lined c.text [labelled "sw: " c.sw, labelled "sh: " c.sh, labelled "sb: " c.sb] := by
  have htext : c.text = labelled "sw: " c.sw ++ '\n' :: (labelled "sh: " c.sh ++ '\n' ::
      (labelled "sb: " c.sb ++ '\n' :: [])) := by
    have hlines : c.text = c.line .word ++ (c.line .half ++ (c.line .byte ++ [])) := rfl
    rw [hlines, line_eq, line_eq, line_eq]
    simp only [List.append_assoc, List.singleton_append, List.append_nil]
    rfl
  rw [htext]
  exact lined_labelled (by decide) _ (lined_labelled (by decide) _ (lined_labelled (by decide) _ .nothing))

theorem ofText?_text {c : Counts} (h : c.Fits) : ofText? c.text = some c := by
  rw [ofText?, lined_iff.mp (lined_text c)]
  have hsw : numberBehind? "sw: " (labelled "sw: " c.sw) = some c.sw := numberBehind?_labelled "sw: " (h .word)
  have hsh : numberBehind? "sh: " (labelled "sh: " c.sh) = some c.sh := numberBehind?_labelled "sh: " (h .half)
  have hsb : numberBehind? "sb: " (labelled "sb: " c.sb) = some c.sb := numberBehind?_labelled "sb: " (h .byte)
  simp only [hsw, hsh, hsb, Option.bind_eq_bind, Option.bind_some]

/-! ## Documents -/

theorem nodup_mnemonics : (Width.reportOrder.map Width.mnemonic).Nodup := by
  decide

/-- A report in JSON is the object of the counts, with a newline behind it. -/
theorem read_json (c : Counts) : Json.read (c.report .json) = some c.json :=
  Json.read_write (Json.exact_ofMembers fun w _ => .int (c.get w)) (List.forall_mem_singleton.mpr rfl)

/-- The member of a width has its name and its count. -/
theorem get?_json (c : Counts) (w : Width) : c.json.get? w.mnemonic = some (.ofNat (c.get w)) := by
  have hw : w ∈ Width.reportOrder := by cases w <;> decide
  rw [json, Json.members_ofMembers]
  exact Json.lookup_members nodup_mnemonics (fun v => .ofNat (c.get v)) hw

theorem nat?_ofNat {max n : Nat} (h : n ≤ max) : (Json.ofNat n).nat? max = some n :=
  if_pos h

theorem ofJson?_json {c : Counts} (h : c.Fits) : ofJson? c.json = some c := by
  have hsw : (Json.ofNat (c.get .word)).nat? max64 = some c.sw := nat?_ofNat (h .word)
  have hsh : (Json.ofNat (c.get .half)).nat? max64 = some c.sh := nat?_ofNat (h .half)
  have hsb : (Json.ofNat (c.get .byte)).nat? max64 = some c.sb := nat?_ofNat (h .byte)
  rw [ofJson?, json, Json.record?_ofMembers nodup_mnemonics]
  simp only [Width.reportOrder, List.map_cons, List.map_nil, hsw, hsh, hsb, Option.bind_eq_bind, Option.bind_some]

theorem read?_json {c : Counts} (h : c.Fits) : read? (c.report .json) = some c := by
  rw [read?, read_json, Option.bind_some, ofJson?_json h]

/-! ## Both formats -/

/-- The counts that a report in a format tells. -/
def readReport? (f : Format) (s : List Char) : Option Counts :=
  match f with
  | .text => ofText? s
  | .json => read? s

theorem readReport?_report {c : Counts} (h : c.Fits) (f : Format) : readReport? f (c.report f) = some c := by
  cases f with
  | text => exact ofText?_text h
  | json => exact read?_json h

/-- **Reports lose nothing.** A report in text has three lines, with each count behind its label, and a report in JSON
is an object with a member of each count. Read back in its format, either report is the counts that it was made of; so
both tell the same, and no format tells different counts alike. -/
theorem report_readable (c : Counts) (h : c.Fits) :
    (∃ x y z, lines (c.report .text) = [x, y, z] ∧ numberBehind? "sw: " x = some c.sw ∧
      numberBehind? "sh: " y = some c.sh ∧ numberBehind? "sb: " z = some c.sb) ∧
    (∃ v, Json.read (c.report .json) = some v ∧
      v.get? "sw" = some (.ofNat c.sw) ∧ v.get? "sh" = some (.ofNat c.sh) ∧ v.get? "sb" = some (.ofNat c.sb)) ∧
    (∀ f, readReport? f (c.report f) = some c) ∧
    ∀ d : Counts, d.Fits → ∀ f, c.report f = d.report f → c = d := by
  refine ⟨⟨_, _, _, lined_iff.mp (lined_text c), ?_, ?_, ?_⟩, ⟨c.json, read_json c, ?_, ?_, ?_⟩,
    readReport?_report h, fun d hd f heq => ?_⟩
  · exact numberBehind?_labelled "sw: " (h .word)
  · exact numberBehind?_labelled "sh: " (h .half)
  · exact numberBehind?_labelled "sb: " (h .byte)
  · exact get?_json c .word
  · exact get?_json c .half
  · exact get?_json c .byte
  · have hc := readReport?_report h f
    rw [heq, readReport?_report hd f] at hc
    exact (Option.some.inj hc).symm

/-- The largest number of 64 bits ahead of two small ones. -/
theorem report_readable_largest :
    let c : Counts := ⟨max64, 0, 70⟩
    c.Fits ∧ c.report .text = "sw: 18446744073709551615\nsh: 0\nsb: 70\n".toList ∧
      readReport? .text (c.report .text) = some c ∧ readReport? .json (c.report .json) = some c := by
  intro c
  have hfits : c.Fits := by
    intro w
    cases w <;> decide
  obtain ⟨-, -, hread, -⟩ := report_readable c hfits
  exact ⟨hfits, by decide +kernel, hread .text, hread .json⟩

end CoreBench.Trace.Counts
