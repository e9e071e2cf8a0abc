import CoreBench.Files.Access
import CoreBench.Proofs.Files.Stream
import CoreBench.Proofs.Text.Utf8

/-!
Files that are written are found again. A walk stops at what is no directory, so a node that is put where no
directory stands changes no walk but those that end there, and these now lead to it.

What is proved:
  * `walk_put`: a walk that was possible stays possible;
  * `locateNew_eq_ok`: what has to be there for a path to lead to a file that is to be written;
  * `locate_put_of_locateNew`: once written, the path leads to that file;
  * `readText_of_create`: a text that is written to it is read by the same path.
-/

namespace CoreBench.Files.Tree

open CoreBench.Text

variable {t u : Tree} {p q : Place} {path : String}

/-! ## Walks -/

theorem walk_append (t : Tree) (here : Place) (ns ms : List String) :
    t.walk here (ns ++ ms) = (t.walk here ns).bind fun q => t.walk q ms := by
  induction ns generalizing here with
  | nil => rfl
  | cons n ns ih =>
    rw [List.cons_append, walk, walk]
    split
    · rfl
    · split
      · exact ih here
      · split
        · exact ih here.dropLast
        · split
          · rfl
          · split
            · rfl
            · exact ih (here ++ [n])
    · rfl

/-- One step of a walk that leads somewhere: from a directory it stays, goes up, or goes to what is there. -/
theorem walk_cons_eq_ok {here : Place} {n : String} {ns : List String} :
    t.walk here (n :: ns) = .ok q ↔ t.node? here = some .directory ∧
      (n = "." ∧ t.walk here ns = .ok q ∨ n = ".." ∧ t.walk here.dropLast ns = .ok q ∨
        n ≠ "." ∧ n ≠ ".." ∧ n.utf8ByteSize ≤ longestName ∧ t.node? (here ++ [n]) ≠ none ∧
          t.walk (here ++ [n]) ns = .ok q) := by
  rw [walk]
  split
  · next h => simp [h]
  · next h =>
    simp only [h, true_and]
    split
    · next hdot => simp [hdot]
    · next hdot =>
      split
      · next hup => simp [hup]
      · next hup =>
        split
        · next hlen => simp [hdot, hup, Nat.not_le.mpr hlen]
        · next hlen =>
          split
          · next hthere => simp [hdot, hup, hthere]
          · next hthere => simp [hdot, hup, hthere, Nat.le_of_not_lt hlen]
  · next m hother h =>
    have hne : m ≠ .directory := hother
    simp [h, hne]

/-- A walk that stays where it ends needs a directory there. -/
theorem walk_dot {here : Place} {ns : List String} (h : t.walk here (ns ++ ["."]) = .ok q) :
    t.walk here ns = .ok q ∧ t.node? q = some .directory := by
  rw [walk_append] at h
  cases hns : t.walk here ns with
  | error f => rw [hns] at h; cases h
  | ok r =>
    rw [hns] at h
    obtain ⟨hdir, ⟨-, hr⟩ | ⟨hup, -⟩ | ⟨hdot, -⟩⟩ := walk_cons_eq_ok.mp h
    · obtain rfl := Except.ok.inj hr
      exact ⟨rfl, hdir⟩
    · exact absurd hup (by decide)
    · exact absurd rfl hdot

theorem node?_put_ne_none (h : t.node? q ≠ none) (n : Node) : (t.put p n).node? q ≠ none := by
  by_cases heq : q = p
  · subst heq
    by_cases hroot : q = []
    · subst hroot
      exact Option.some_ne_none Node.directory
    · rw [node?_put hroot]
      exact Option.some_ne_none n
  · rwa [node?_put_of_ne heq]

/-- Every step of a walk starts from a directory, so none starts from where the new node stands. -/
theorem walk_put (hp : t.node? p ≠ some .directory) (n : Node) {here : Place} {ns : List String}
    (h : t.walk here ns = .ok q) : (t.put p n).walk here ns = .ok q := by
  induction ns generalizing here with
  | nil => exact h
  | cons m ns ih =>
    obtain ⟨hhere, hstep⟩ := walk_cons_eq_ok.mp h
    have hne : here ≠ p := by
      rintro rfl
      exact hp hhere
    refine walk_cons_eq_ok.mpr ⟨(node?_put_of_ne hne).trans hhere, ?_⟩
    rcases hstep with ⟨hdot, hrest⟩ | ⟨hup, hrest⟩ | ⟨hdot, hup, hlen, hthere, hrest⟩
    · exact Or.inl ⟨hdot, ih hrest⟩
    · exact Or.inr (Or.inl ⟨hup, ih hrest⟩)
    · exact Or.inr (Or.inr ⟨hdot, hup, hlen, node?_put_ne_none hthere n, ih hrest⟩)

/-! ## Paths -/

/-- What has to be there for a path to lead to a file that is to be written: a directory, and no directory where
the file is to stand. -/
theorem locateNew_eq_ok (h : t.locateNew path = .ok p) :
    badPath? path = none ∧ endsWithSlash path = false ∧ t.node? p ≠ some .directory ∧
      ∃ ns last parent, names path = ns ++ [last] ∧ last ≠ "." ∧ last ≠ ".." ∧
        last.utf8ByteSize ≤ longestName ∧ t.walk (t.start path) ns = .ok parent ∧
        t.node? parent = some .directory ∧ p = parent ++ [last] := by
  rw [locateNew] at h
  split at h
  · cases h
  · next hbad =>
    simp only at h
    split at h
    · cases h
    · next last hlast =>
      split at h
      · split at h <;> cases h
      · next hdots =>
        obtain ⟨hdot, hup⟩ := not_or.mp hdots
        split at h
        · cases h
        · next parent hwalk =>
          obtain ⟨hparent, hdir⟩ := walk_dot hwalk
          split at h
          · cases h
          · next hslash =>
            split at h
            · cases h
            · next hlen =>
              split at h
              · cases h
              · next hnode =>
                obtain rfl := Except.ok.inj h
                obtain ⟨ns, hns⟩ := List.getLast?_eq_some_iff.mp hlast
                rw [hns, List.dropLast_concat] at hparent
                exact ⟨hbad, eq_false_of_ne_true hslash, hnode, ns, last, parent, hns, hdot, hup,
                  Nat.le_of_not_lt hlen, hparent, hdir, rfl⟩

/-- Once something stands where a path was to lead to, the path leads there. -/
theorem locate_put_of_locateNew (h : t.locateNew path = .ok p) (n : Node) :
    (t.put p n).locate path = .ok p := by
  obtain ⟨hbad, hslash, hnode, ns, last, parent, hnames, hdot, hup, hlen, hwalk, hdir, rfl⟩ :=
    locateNew_eq_ok h
  have hparent : parent ≠ parent ++ [last] := by
    intro e
    rw [← e] at hnode
    exact hnode hdir
  have hthere : (t.put (parent ++ [last]) n).node? (parent ++ [last]) ≠ none := by
    rw [node?_put (List.append_ne_nil_of_right_ne_nil parent (List.cons_ne_nil last []))]
    exact Option.some_ne_none n
  have hto : (t.put (parent ++ [last]) n).walk (t.start path) ns = .ok parent :=
    walk_put hnode n hwalk
  have hlast : (t.put (parent ++ [last]) n).walk parent [last] = .ok (parent ++ [last]) :=
    walk_cons_eq_ok.mpr ⟨(node?_put_of_ne hparent).trans hdir,
      Or.inr (Or.inr ⟨hdot, hup, hlen, hthere, rfl⟩)⟩
  rw [locate, hbad, hslash, hnames]
  show (t.put (parent ++ [last]) n).walk (t.start path) (ns ++ [last] ++ []) = _
  rw [List.append_nil, walk_append, hto]
  exact hlast

/-! ## Files -/

theorem putIn_putIn (p : Place) (m n : Node) (l : List (Place × Node)) :
    putIn p n (putIn p m l) = putIn p n l := by
  induction l with
  | nil => simp [putIn]
  | cons x l ih =>
    by_cases h : x.1 = p
    · simp [putIn, h]
    · simp [putIn, h, ih]

/-- Of two nodes put at one place, the later one counts. -/
theorem put_put (t : Tree) (p : Place) (m n : Node) : (t.put p m).put p n = t.put p n := by
  simp only [put, putIn_putIn]

/-- A file that is created is put, empty, where the path was to lead to. -/
theorem create_file (h : t.create path = .ok (u, p)) (hfile : u.node? p = some (.file [])) :
    t.locateNew path = .ok p ∧ u = t.put p (.file []) := by
  rw [create] at h
  split at h
  · cases h
  · next r hr =>
    split at h
    · obtain ⟨rfl, rfl⟩ := Prod.mk.inj (Except.ok.inj h)
      exact ⟨hr, rfl⟩
    · obtain ⟨rfl, rfl⟩ := Prod.mk.inj (Except.ok.inj h)
      exact ⟨hr, rfl⟩
    · next n hother hn =>
      -- What is no file is left as it is, and no file stands there then.
      obtain ⟨rfl, rfl⟩ := Prod.mk.inj (Except.ok.inj h)
      rw [hn] at hfile
      exact absurd (Option.some.inj hfile) (hother [])

theorem append_file {b c : Octets} (h : t.node? p = some (.file b)) :
    t.append p c = .ok (t.put p (.file (b ++ c))) := by
  rw [append, h]

theorem streamAt_file {b : Octets} (h : t.node? p = some (.file b)) : t.streamAt p = [.part b] := by
  rw [streamAt, h]
  rfl

theorem streamAt_directory (h : t.node? p = some .directory) : t.streamAt p = [.failure .isADirectory] := by
  rw [streamAt, h]
  rfl

theorem readText_of_octets {s : String} (hpath : t.locate path = .ok p)
    (hfile : t.node? p = some (.file (octets s))) : t.readText path = .ok s := by
  simp only [readText, hpath, streamAt_file hfile, whole_part, ofOctets?_octets]

/-- What is written to a file that was created is read by the same path. -/
theorem readText_of_create (h : t.create path = .ok (u, p)) (hfile : u.node? p = some (.file []))
    (s : String) : (u.put p (.file (octets s))).readText path = .ok s := by
  obtain ⟨hnew, rfl⟩ := create_file h hfile
  rw [put_put]
  have hroot : p ≠ [] := by
    rintro rfl
    cases hfile
  exact readText_of_octets (locate_put_of_locateNew hnew _) (node?_put hroot)

end CoreBench.Files.Tree
