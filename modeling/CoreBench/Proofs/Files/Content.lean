import CoreBench.Proofs.Files.Growth
import CoreBench.Proofs.Text.Parts

/-!
Files by plain paths. A plain path leads down from the working directory by the names that it is made of, whatever else
is there, so no two of them lead to one place, and what a file holds can be said of its path.

What is proved:
  * `PlainPath.ext`: plain paths of the same names are the same;
  * `walk_eq_ok_iff`: a walk that only leads down ends at the place with its names, if they can be passed;
  * `content?_eq_some_iff`: when a plain path leads to a file, and what the file holds;
  * `content?_put`: a file that is put where a plain path leads to is found by this path, and no other one notices;
  * `readText_of_text`, `openRead_of_content` and the lemmas beside them: what reading by a path comes to.
-/

namespace CoreBench.Files.Tree

open CoreBench.Text

variable {t u : Tree} {p q here : Place} {path path' : String} {ns : List String}

/-! ## Plain paths -/

/-- Whether a path is made of names with one slash between each two of them, all of which lead down. -/
def PlainPath (path : String) : Prop :=
  ∀ n ∈ pieces '/' path.toList, n ≠ [] ∧ n ≠ ['.'] ∧ n ≠ ['.', '.']

instance (path : String) : Decidable (PlainPath path) :=
  inferInstanceAs (Decidable (∀ n ∈ _, _))

namespace PlainPath

theorem names_eq (h : PlainPath path) : names path = (pieces '/' path.toList).map String.ofList := by
  rw [names, List.filter_eq_self.mpr]
  intro n hn
  exact decide_eq_true (h n hn).1

theorem names_ne_nil (h : PlainPath path) : names path ≠ [] := by
  rw [h.names_eq]
  exact fun e => pieces_ne_nil '/' path.toList (List.map_eq_nil_iff.mp e)

theorem leads_down (h : PlainPath path) : ∀ n ∈ names path, n ≠ "." ∧ n ≠ ".." := by
  rw [h.names_eq]
  intro n hn
  obtain ⟨s, hs, rfl⟩ := List.mem_map.mp hn
  obtain ⟨-, hdot, hup⟩ := h s hs
  refine ⟨fun e => hdot ?_, fun e => hup ?_⟩
  · rw [← String.toList_ofList (l := s), e]
    rfl
  · rw [← String.toList_ofList (l := s), e]
    rfl

/-- Plain paths of the same names are the same. -/
theorem ext (h : PlainPath path) (h' : PlainPath path') (hnames : names path = names path') : path = path' := by
  rw [h.names_eq, h'.names_eq] at hnames
  have hpieces := (List.map_inj_right fun s s' e => String.ofList_injective e).mp hnames
  apply String.toList_inj.mp
  rw [← intercalate_pieces '/' path.toList, hpieces, intercalate_pieces]

/-- A slash has a name ahead of it and one behind it. -/
theorem ne_of_slash (h : PlainPath path) {s v : List Char} (hpath : path.toList = s ++ '/' :: v) : s ≠ [] ∧ v ≠ [] := by
  rw [PlainPath, hpath, pieces_append_cons] at h
  constructor
  · rintro rfl
    exact (h [] (List.mem_append_left _ List.mem_cons_self)).1 rfl
  · rintro rfl
    exact (h [] (List.mem_append_right _ List.mem_cons_self)).1 rfl

theorem start_eq (h : PlainPath path) (t : Tree) : t.start path = t.home := by
  have hrelative : isAbsolute path = false := by
    apply Bool.eq_false_iff.mpr
    intro habsolute
    obtain ⟨v, hv⟩ := List.head?_eq_some_iff.mp (beq_iff_eq.mp habsolute)
    exact (h.ne_of_slash (s := []) hv).1 rfl
  rw [start, hrelative]
  rfl

theorem endsWithSlash_eq (h : PlainPath path) : endsWithSlash path = false := by
  apply Bool.eq_false_iff.mpr
  intro hslash
  obtain ⟨s, hs⟩ := List.getLast?_eq_some_iff.mp (beq_iff_eq.mp hslash)
  exact (h.ne_of_slash hs).2 rfl

end PlainPath

/-! ## Ways down -/

/-- Whether names can be passed from a place on: each is short enough, and asked of a directory. -/
def Passes (t : Tree) : Place → List String → Prop
  | _, [] => True
  | here, n :: ns => t.node? here = some .directory ∧ n.utf8ByteSize ≤ longestName ∧ t.Passes (here ++ [n]) ns

theorem Grown.passes_iff (h : Grown t u) : u.Passes here ns ↔ t.Passes here ns := by
  induction ns generalizing here with
  | nil => exact Iff.rfl
  | cons n ns ih => rw [Passes, Passes, h.directory_iff, ih]

/-- A walk that only leads down ends at the place with its names, if they can be passed and something is there. -/
theorem walk_eq_ok_iff (hns : ∀ n ∈ ns, n ≠ "." ∧ n ≠ "..") :
    t.walk here ns = .ok q ↔ t.Passes here ns ∧ q = here ++ ns ∧ (ns ≠ [] → t.node? q ≠ none) := by
  induction ns generalizing here with
  | nil =>
    rw [walk, List.append_nil]
    simp [Passes, eq_comm]
  | cons n ns ih =>
    obtain ⟨⟨hdot, hup⟩, hrest⟩ := List.forall_mem_cons.mp hns
    have hnext : t.walk (here ++ [n]) ns = .ok q ↔
        t.Passes (here ++ [n]) ns ∧ q = here ++ n :: ns ∧ (ns ≠ [] → t.node? q ≠ none) := by
      rw [ih hrest, List.append_assoc, List.singleton_append]
    rw [walk_cons_eq_ok, hnext, Passes]
    constructor
    · rintro ⟨hdir, ⟨e, -⟩ | ⟨e, -⟩ | ⟨-, -, hlen, hthere, hpasses, rfl, hend⟩⟩
      · exact absurd e hdot
      · exact absurd e hup
      · refine ⟨⟨hdir, hlen, hpasses⟩, rfl, fun _ => ?_⟩
        by_cases hlast : ns = []
        · rwa [hlast]
        · exact hend hlast
    · rintro ⟨⟨hdir, hlen, hpasses⟩, rfl, hend⟩
      refine ⟨hdir, Or.inr (Or.inr ⟨hdot, hup, hlen, ?_, hpasses, rfl, fun _ => hend (List.cons_ne_nil n ns)⟩)⟩
      -- What is ahead of further names is a directory.
      cases ns with
      | nil => exact hend (List.cons_ne_nil n [])
      | cons m ns => simp [hpasses.1]

/-- The place that a plain path leads to. -/
def placeOf (t : Tree) (path : String) : Place :=
  t.home ++ names path

theorem PlainPath.placeOf_ne (h : PlainPath path) (h' : PlainPath path') (hne : path ≠ path') (t : Tree) :
    t.placeOf path ≠ t.placeOf path' := fun e =>
  hne (h.ext h' (List.append_cancel_left e))

theorem locate_eq_ok_iff (h : PlainPath path) :
    t.locate path = .ok p ↔
      badPath? path = none ∧ t.Passes t.home (names path) ∧ p = t.placeOf path ∧ t.node? p ≠ none := by
  rw [locate, h.start_eq, h.endsWithSlash_eq]
  cases badPath? path with
  | some f => simp
  | none => simp [walk_eq_ok_iff h.leads_down, placeOf, h.names_ne_nil]

theorem eq_placeOf_of_locateNew (h : PlainPath path) (hp : t.locateNew path = .ok p) : p = t.placeOf path := by
  obtain ⟨-, -, -, ns, last, parent, hnames, -, -, -, hwalk, -, rfl⟩ := locateNew_eq_ok hp
  have hdown : ∀ n ∈ ns, n ≠ "." ∧ n ≠ ".." := by
    intro n hn
    exact h.leads_down n (hnames ▸ List.mem_append_left _ hn)
  rw [h.start_eq] at hwalk
  obtain ⟨-, rfl, -⟩ := (walk_eq_ok_iff hdown).mp hwalk
  rw [placeOf, hnames, List.append_assoc]

/-! ## What files hold -/

/-- What the regular file holds that a path leads to. -/
def content? (t : Tree) (path : String) : Option Octets :=
  match t.locate path with
  | .error _ => none
  | .ok p =>
    match t.node? p with
    | some (.file b) => some b
    | _ => none

theorem content?_eq_some {b : Octets} :
    t.content? path = some b ↔ ∃ p, t.locate path = .ok p ∧ t.node? p = some (.file b) := by
  rw [content?]
  cases t.locate path with
  | error f => simp
  | ok p =>
    cases hp : t.node? p with
    | none => simp [hp]
    | some n => cases n <;> simp [hp]

theorem content?_eq_some_iff (h : PlainPath path) {b : Octets} :
    t.content? path = some b ↔
      badPath? path = none ∧ t.Passes t.home (names path) ∧ t.node? (t.placeOf path) = some (.file b) := by
  rw [content?_eq_some]
  constructor
  · rintro ⟨p, hp, hfile⟩
    obtain ⟨hbad, hpasses, rfl, -⟩ := (locate_eq_ok_iff h).mp hp
    exact ⟨hbad, hpasses, hfile⟩
  · rintro ⟨hbad, hpasses, hfile⟩
    refine ⟨_, (locate_eq_ok_iff h).mpr ⟨hbad, hpasses, rfl, ?_⟩, hfile⟩
    rw [hfile]
    exact Option.some_ne_none _

/-- A file that is put where a plain path leads to is found by this path, and no other one notices. -/
theorem content?_put (hp : t.locateNew path = .ok p) (hregular : Regular (t.node? p)) (h : PlainPath path)
    (h' : PlainPath path') (b : Octets) :
    (t.put p (.file b)).content? path' = if path' = path then some b else t.content? path' := by
  split
  · next heq =>
    rw [heq]
    exact content?_eq_some.mpr ⟨p, locate_put_of_locateNew hp _, node?_put hregular.ne_root⟩
  · next hne =>
    have hplace : t.placeOf path' ≠ p := by
      rw [eq_placeOf_of_locateNew h hp]
      exact h'.placeOf_ne h hne t
    have hgrown := grown_put hregular b
    have hsame : (t.put p (.file b)).placeOf path' = t.placeOf path' := rfl
    ext c
    rw [content?_eq_some_iff h', content?_eq_some_iff h', hsame, hgrown.home_eq, hgrown.passes_iff,
      node?_put_of_ne hplace]

/-- Below the working directory there are regular files and directories, and nothing else. -/
def Ordinary (t : Tree) : Prop :=
  ∀ ns, Regular (t.node? (t.home ++ ns)) ∨ t.node? (t.home ++ ns) = some .directory

/-- Whether there is anything else can be seen from the list of nodes. -/
theorem ordinary_of_nodes (h : ∀ e ∈ t.nodes, t.home <+: e.1 → e.2 ≠ .null ∧ e.2 ≠ .full) : t.Ordinary := by
  intro ns
  by_cases hroot : t.home ++ ns = []
  · rw [hroot]
    exact Or.inr rfl
  · rw [node?, if_neg hroot]
    cases hnode : t.nodes.lookup (t.home ++ ns) with
    | none => exact Or.inl (Or.inl rfl)
    | some n =>
      obtain ⟨ahead, behind, hnodes, -⟩ := List.lookup_eq_some_iff.mp hnode
      have hmem : (t.home ++ ns, n) ∈ t.nodes := by
        rw [hnodes]
        exact List.mem_append_right _ List.mem_cons_self
      obtain ⟨hnull, hfull⟩ := h _ hmem (List.prefix_append t.home ns)
      cases n with
      | file b => exact Or.inl (Or.inr ⟨b, rfl⟩)
      | directory => exact Or.inr rfl
      | null => exact absurd rfl hnull
      | full => exact absurd rfl hfull

theorem Grown.ordinary (h : Grown t u) (ht : t.Ordinary) : u.Ordinary := by
  intro ns
  rw [h.home_eq, h.regular_iff, h.directory_iff]
  exact ht ns

/-- Where a file can be created, nothing stands, or a regular file. -/
theorem Ordinary.regular (ht : t.Ordinary) (h : PlainPath path) (hp : t.locateNew path = .ok p) :
    Regular (t.node? p) := by
  obtain ⟨-, -, hnode, -⟩ := locateNew_eq_ok hp
  obtain rfl := eq_placeOf_of_locateNew h hp
  exact (ht (names path)).resolve_right hnode

/-! ## Reading -/

theorem readText_of_text {s : String} (h : t.content? path = some (octets s)) : t.readText path = .ok s := by
  obtain ⟨p, hp, hfile⟩ := content?_eq_some.mp h
  exact readText_of_octets hp hfile

theorem readText_of_no_text {b : Octets} (h : t.content? path = some b) (hnone : ofOctets? b = none) :
    t.readText path = .error ⟨.reading, path, .notText⟩ := by
  obtain ⟨p, hp, hfile⟩ := content?_eq_some.mp h
  simp only [readText, hp, streamAt_file hfile, whole_part, hnone]

theorem openRead_of_content {b : Octets} (h : t.content? path = some b) : t.openRead path = .ok [.part b] := by
  obtain ⟨p, hp, hfile⟩ := content?_eq_some.mp h
  simp only [openRead, hp, streamAt_file hfile]

/-- A plain path that leads to no file leads nowhere, or to a directory. -/
theorem locate_of_no_content (ht : t.Ordinary) (h : PlainPath path) (hnone : t.content? path = none) :
    (∃ f, t.locate path = .error f) ∨ ∃ p, t.locate path = .ok p ∧ t.node? p = some .directory := by
  cases hp : t.locate path with
  | error f => exact Or.inl ⟨f, rfl⟩
  | ok p =>
    obtain ⟨-, -, rfl, hthere⟩ := (locate_eq_ok_iff h).mp hp
    refine Or.inr ⟨_, rfl, ?_⟩
    rcases ht (names path) with (hnode | ⟨b, hfile⟩) | hdir
    · exact absurd hnode hthere
    · have hsome := content?_eq_some.mpr ⟨_, hp, hfile⟩
      rw [hnone] at hsome
      cases hsome
    · exact hdir

theorem readText_of_no_content (ht : t.Ordinary) (h : PlainPath path) (hnone : t.content? path = none) :
    ∃ f, t.readText path = .error ⟨.reading, path, f⟩ := by
  rcases locate_of_no_content ht h hnone with ⟨f, hp⟩ | ⟨p, hp, hdir⟩
  · exact ⟨f, by rw [readText, hp]⟩
  · refine ⟨.isADirectory, ?_⟩
    simp only [readText, hp, streamAt_directory hdir, Stream.whole]

theorem openRead_of_no_content (ht : t.Ordinary) (h : PlainPath path) (hnone : t.content? path = none) :
    (∃ f, t.openRead path = .error ⟨.opening, path, f⟩) ∨ ∃ s f, t.openRead path = .ok s ∧ s.whole = .error f := by
  rcases locate_of_no_content ht h hnone with ⟨f, hp⟩ | ⟨p, hp, hdir⟩
  · exact Or.inl ⟨f, by rw [openRead, hp]⟩
  · refine Or.inr ⟨[.failure .isADirectory], .isADirectory, ?_, rfl⟩
    simp only [openRead, hp, streamAt_directory hdir]

end CoreBench.Files.Tree
