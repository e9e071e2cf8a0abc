import CoreBench.Proofs.Files.Tree
import CoreBench.Proofs.Text.Parts
import CoreBench.Settings.Load
import Mathlib.Data.List.Forall2

/-!
Configuration files: which ones a variable lists, and what is read of a file that a path names, said by the octets in
the file and not by what reads them.

What is proved:
  * `Environment.lists_iff`: the files that a variable lists are what its text is made of;
  * `readFile?_eq_some_iff`: what is read of a configuration file are the settings of the document in it, and a file
    that holds none is not read;
  * `mapM_readFile?`: files are read in the order in which they are named.
-/

namespace CoreBench.Settings

open CoreBench.Files CoreBench.Text

/-! ## Listed files -/

namespace Environment

/-- The paths that a variable lists: its text without the blanks around it is cut at the commas, and empty parts do not
count. Without the variable there are none. -/
inductive Lists (env : Environment) (x : String) : List String → Prop
  | unset : env.lookup x = none → Lists env x []
  | set {text : String} {s : List Char} {ps : List (List Char)} : env.lookup x = some text → Trims text.toList s →
      Parted ',' s ps → Lists env x ((ps.filter (· ≠ [])).map String.ofList)

theorem lists_iff {env : Environment} {x : String} {paths : List String} :
    env.Lists x paths ↔ env.files x = paths := by
  constructor
  · intro h
    cases h with
    | unset hnone => rw [files, hnone]
    | @set text s ps hsome htrims hparted =>
      simp only [files, hsome, trims_iff.mp htrims, parted_iff.mp hparted]
  · rintro rfl
    rw [files]
    split
    · next hnone => exact .unset hnone
    · next text hsome => exact .set hsome (trims_trim text.toList) (parted_iff.mpr rfl)

end Environment

/-! ## Files that can be read -/

/-- Whether a path names a configuration file with these settings: the file that it leads to, as it stands or with
`.toml` behind it, has the octets of a text, and the text is a document with the settings. -/
def Reads (t : Tree) (path : String) (es : Entries) : Prop :=
  ∃ full p s, configFile? t path = some full ∧ t.locate full = .ok p ∧ t.node? p = some (.file (octets s)) ∧
    Toml.read s.toList = some es

/-- A configuration file with the octets of a text gives the settings of the document that the text is. -/
theorem readFile?_of_octets {t : Tree} {path full s : String} {p : Place}
    (hfull : configFile? t path = some full) (hpath : t.locate full = .ok p)
    (hfile : t.node? p = some (.file (octets s))) : readFile? t path = Toml.read s.toList := by
  simp only [readFile?, hfull, Option.bind_eq_bind, Option.bind_some,
    Tree.readText_of_octets hpath hfile]

theorem isFile_of_configFile? {t : Tree} {path full : String} (h : configFile? t path = some full) :
    ∃ p b, t.locate full = .ok p ∧ t.node? p = some (.file b) := by
  have hfile : t.isFile full = true := by
    simp only [configFile?, Option.bind_eq_bind, Option.bind_eq_some_iff] at h
    obtain ⟨here, -, h⟩ := h
    split at h
    · next hhere => exact Option.some.inj h ▸ hhere
    · obtain ⟨there, -, h⟩ := Option.bind_eq_some_iff.mp h
      split at h
      · next hthere => exact Option.some.inj h ▸ hthere
      · cases h
  rw [Tree.isFile] at hfile
  split at hfile
  · cases hfile
  · next p hp =>
    split at hfile
    · next b hb => exact ⟨p, b, hp, hb⟩
    · cases hfile

/-- A file that is read as a text has the octets of that text. -/
theorem eq_octets_of_readText {t : Tree} {full s : String} {p : Place} {b : Octets}
    (hpath : t.locate full = .ok p) (hfile : t.node? p = some (.file b)) (h : t.readText full = .ok s) :
    b = octets s := by
  simp only [Tree.readText, hpath, Tree.streamAt_file hfile, whole_part] at h
  cases htext : ofOctets? b with
  | none =>
    rw [htext] at h
    cases h
  | some s' =>
    rw [htext] at h
    cases h
    exact ofOctets?_eq_some_iff.mp htext

/-- What is read of a configuration file is what is written in it. -/
theorem readFile?_eq_some_iff {t : Tree} {path : String} {es : Entries} :
    readFile? t path = some es ↔ Reads t path es := by
  constructor
  · intro h
    obtain ⟨full, hfull, h⟩ := Option.bind_eq_some_iff.mp h
    obtain ⟨p, b, hp, hb⟩ := isFile_of_configFile? hfull
    split at h
    · cases h
    · next s hs => exact ⟨full, p, s, hfull, hp, eq_octets_of_readText hp hb hs ▸ hb, h⟩
  · rintro ⟨full, p, s, hfull, hp, hfile, hread⟩
    rw [readFile?_of_octets hfull hp hfile, hread]

/-- Files are read one after the other. -/
theorem mapM_readFile? {t : Tree} {paths : List String} {contents : List Entries}
    (h : List.Forall₂ (Reads t) paths contents) : paths.mapM (readFile? t) = some contents := by
  induction h with
  | nil => rfl
  | cons hfile _ ih =>
    rw [List.mapM_cons, readFile?_eq_some_iff.mpr hfile, ih]
    rfl

end CoreBench.Settings
