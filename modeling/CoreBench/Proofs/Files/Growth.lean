import CoreBench.Proofs.Files.Tree

/-!
Trees that have grown. Files have been written since, new ones or over old ones, and nothing has gone; so every
directory is where it was, and a walk only differs where it comes to a file that is new.

What is proved:
  * `grown_put`: writing a file where none or an old one stands is growth;
  * `walk_grown`: a walk leads where it led, or what it did not find is a file now;
  * `locateNew_grown`: a path to be written leads where it led, and what refuses it stays the same but for a name
    that was missing and is now that of a file;
  * `locateNew_alike`: a path does not depend on more of a tree than what stands where;
  * `create_eq_ok`, `create_eq_error`: a file is created where its path leads, or refused as the path is.
-/

namespace CoreBench.Files.Tree

open CoreBench.Text

variable {t u v : Tree} {p q : Place} {path : String}

/-- Nothing stands there, or a regular file. -/
def Regular (n : Option Node) : Prop :=
  n = none ∨ ∃ b, n = some (.file b)

/-- A tree that has grown: what is not as it was is a file now, and a file or nothing stood there. -/
structure Grown (t u : Tree) : Prop where
  home_eq : u.home = t.home
  nodes : ∀ q, u.node? q = t.node? q ∨ Regular (t.node? q) ∧ ∃ b, u.node? q = some (.file b)

namespace Grown

protected theorem refl (t : Tree) : Grown t t :=
  ⟨rfl, fun _ => Or.inl rfl⟩

theorem regular_iff (h : Grown t u) (q : Place) : Regular (u.node? q) ↔ Regular (t.node? q) := by
  rcases h.nodes q with heq | ⟨ht, b, hu⟩
  · rw [heq]
  · exact ⟨fun _ => ht, fun _ => Or.inr ⟨b, hu⟩⟩

protected theorem trans (h : Grown t u) (h' : Grown u v) : Grown t v := by
  refine ⟨h'.home_eq.trans h.home_eq, fun q => ?_⟩
  rcases h'.nodes q with heq | ⟨hu, hv⟩
  · rw [heq]
    exact h.nodes q
  · exact Or.inr ⟨(h.regular_iff q).mp hu, hv⟩

theorem directory_iff (h : Grown t u) (q : Place) :
    u.node? q = some .directory ↔ t.node? q = some .directory := by
  rcases h.nodes q with heq | ⟨ht | ⟨b, ht⟩, c, hu⟩
  · rw [heq]
  · simp [ht, hu]
  · simp [ht, hu]

end Grown

theorem Regular.ne_root {p : Place} (h : Regular (t.node? p)) : p ≠ [] := by
  rintro rfl
  rcases h with h | ⟨b, h⟩ <;> cases h

theorem grown_put (h : Regular (t.node? p)) (b : Octets) : Grown t (t.put p (.file b)) := by
  refine ⟨rfl, fun q => ?_⟩
  by_cases hq : q = p
  · subst hq
    exact Or.inr ⟨h, b, node?_put h.ne_root⟩
  · exact Or.inl (node?_put_of_ne hq)

/-! ## Walks -/

/-- What a lookup comes to later on: the same, or a name that was missing is now that of a file. -/
def Later (r r' : Except Fault Place) : Prop :=
  r' = r ∨ r = .error .notFound ∧ r' = .error .notADirectory

theorem walk_file {here : Place} {b : Octets} (h : t.node? here = some (.file b)) (n : String)
    (ns : List String) : t.walk here (n :: ns) = .error .notADirectory := by
  rw [walk, h]

theorem walk_nothing {here : Place} (h : t.node? here = none) (n : String) (ns : List String) :
    t.walk here (n :: ns) = .error .notFound := by
  rw [walk, h]

/-- A walk in a tree that has grown: it leads where it led, or it did not find what is a file now, and ends
at that file or goes no further. -/
theorem walk_grown (h : Grown t u) (here : Place) (ns : List String) :
    Later (t.walk here ns) (u.walk here ns) ∨
      t.walk here ns = .error .notFound ∧ ∃ q b, u.walk here ns = .ok q ∧ u.node? q = some (.file b) := by
  induction ns generalizing here with
  | nil => exact Or.inl (Or.inl rfl)
  | cons n ns ih =>
    rcases h.nodes here with heq | ⟨hthere | ⟨b, hthere⟩, c, hnow⟩
    · rw [walk, walk, heq]
      split
      · exact Or.inl (Or.inl rfl)
      · split
        · exact ih here
        · split
          · exact ih here.dropLast
          · split
            · exact Or.inl (Or.inl rfl)
            · rcases h.nodes (here ++ [n]) with hnext | ⟨hnone | ⟨b, hfile⟩, c, hnow⟩
              · rw [hnext]
                split
                · exact Or.inl (Or.inl rfl)
                · exact ih (here ++ [n])
              · -- The name was missing and is that of a file now.
                rw [if_pos hnone, hnow, if_neg (Option.some_ne_none _)]
                cases ns with
                | nil => exact Or.inr ⟨rfl, here ++ [n], c, rfl, hnow⟩
                | cons m ms => exact Or.inl (Or.inr ⟨rfl, walk_file hnow m ms⟩)
              · rw [hfile, hnow, if_neg (Option.some_ne_none _), if_neg (Option.some_ne_none _)]
                exact ih (here ++ [n])
      · exact Or.inl (Or.inl rfl)
    · exact Or.inl (Or.inr ⟨walk_nothing hthere n ns, walk_file hnow n ns⟩)
    · rw [walk_file hthere, walk_file hnow]
      exact Or.inl (Or.inl rfl)

/-- A walk that asks for a directory at its end cannot end at a file. -/
theorem walk_grown_of_dots (h : Grown t u) (here : Place) (ns : List String) {d : String}
    (hd : d = "." ∨ d = "..") : Later (t.walk here (ns ++ [d])) (u.walk here (ns ++ [d])) := by
  rw [walk_append, walk_append]
  rcases walk_grown h here ns with (heq | ⟨hwas, hnow⟩) | ⟨hwas, q, b, hnow, hfile⟩
  · rw [heq]
    cases t.walk here ns with
    | error f => exact Or.inl rfl
    | ok q =>
      rcases walk_grown h q [d] with hlater | ⟨hwas, r, b, hnow, hfile⟩
      · exact hlater
      · -- From a directory the last name leads to a directory, which is no file.
        obtain ⟨hdir, hstep⟩ := walk_cons_eq_ok.mp hnow
        have hdir' := (h.directory_iff q).mp hdir
        rw [walk, hdir'] at hwas
        rcases hd with rfl | rfl
        · cases hwas
        · cases hwas
  · rw [hwas, hnow]
    exact Or.inr ⟨rfl, rfl⟩
  · rw [hwas, hnow]
    exact Or.inr ⟨rfl, walk_file hfile d []⟩

/-! ## Paths -/

/-- A path to be written leads where it led; and what refuses it is the same, or a missing name that is
that of a file now. -/
theorem locateNew_grown (h : Grown t u) (path : String) :
    Later (t.locateNew path) (u.locateNew path) := by
  have hstart : u.start path = t.start path := by rw [start, start, h.home_eq]
  rw [locateNew, locateNew, hstart]
  split
  · exact Or.inl rfl
  · simp only
    split
    · exact Or.inl rfl
    · next last hlast =>
      split
      · next hdots =>
        obtain ⟨ns, hns⟩ := List.getLast?_eq_some_iff.mp hlast
        rw [hns]
        rcases walk_grown_of_dots h (t.start path) ns hdots with heq | ⟨hwas, hnow⟩
        · rw [heq]
          exact Or.inl rfl
        · rw [hwas, hnow]
          exact Or.inr ⟨rfl, rfl⟩
      · rcases walk_grown_of_dots h (t.start path) (names path).dropLast (Or.inl rfl) with heq | ⟨hwas, hnow⟩
        · rw [heq]
          simp only [h.directory_iff]
          exact Or.inl rfl
        · rw [hwas, hnow]
          exact Or.inr ⟨rfl, rfl⟩

theorem locateNew_grown_eq_ok (h : Grown t u) : u.locateNew path = .ok p ↔ t.locateNew path = .ok p := by
  rcases locateNew_grown h path with heq | ⟨hwas, hnow⟩
  · rw [heq]
  · rw [hwas, hnow]
    constructor <;> intro hok <;> cases hok

/-! ## Files to be written -/

theorem create_eq_ok : (∃ u, t.create path = .ok (u, p)) ↔ t.locateNew path = .ok p := by
  rw [create]
  cases t.locateNew path with
  | error f => simp
  | ok q =>
    cases hq : t.node? q with
    | none => simp [hq]
    | some n => cases n <;> simp [hq]

theorem create_eq_error {e : FileError} :
    t.create path = .error e ↔ ∃ f, t.locateNew path = .error f ∧ e = ⟨.creating, path, f⟩ := by
  rw [create]
  cases t.locateNew path with
  | error f => simp [eq_comm]
  | ok q =>
    cases hq : t.node? q with
    | none => simp [hq]
    | some n => cases n <;> simp [hq]

/-- Where nothing stands, or a regular file, what is created is an empty file. -/
theorem create_of_regular (h : t.locateNew path = .ok p) (hp : Regular (t.node? p)) :
    t.create path = .ok (t.put p (.file []), p) := by
  rcases hp with hp | ⟨b, hp⟩
  · rw [create, h]
    simp only [hp]
  · rw [create, h]
    simp only [hp]

/-! ## Trees with the same at every place -/

/-- The same stands at every place. -/
structure Alike (t u : Tree) : Prop where
  home_eq : u.home = t.home
  nodes : ∀ q, u.node? q = t.node? q

/-- What stands where a node is put does not depend on what stood there, nor on the rest. -/
theorem node?_put_congr (t u : Tree) (p : Place) (n : Node) :
    (u.put p n).node? p = (t.put p n).node? p := by
  by_cases hroot : p = []
  · subst hroot
    rfl
  · rw [node?_put hroot, node?_put hroot]

namespace Alike

protected theorem refl (t : Tree) : Alike t t :=
  ⟨rfl, fun _ => rfl⟩

protected theorem symm (h : Alike t u) : Alike u t :=
  ⟨h.home_eq.symm, fun q => (h.nodes q).symm⟩

theorem grown (h : Alike t u) : Grown t u :=
  ⟨h.home_eq, fun q => Or.inl (h.nodes q)⟩

protected theorem put (h : Alike t u) (p : Place) (n : Node) : Alike (t.put p n) (u.put p n) := by
  refine ⟨h.home_eq, fun q => ?_⟩
  by_cases hq : q = p
  · subst hq
    exact node?_put_congr t u q n
  · rw [node?_put_of_ne hq, node?_put_of_ne hq]
    exact h.nodes q

end Alike

theorem locateNew_alike (h : Alike t u) (path : String) : u.locateNew path = t.locateNew path := by
  rcases locateNew_grown h.grown path with heq | ⟨-, hnow⟩
  · exact heq
  · rcases locateNew_grown h.symm.grown path with heq | ⟨hnow', -⟩
    · exact heq.symm
    · cases hnow.symm.trans hnow'

/-- Nodes put at two places do not depend on which one was put first. -/
theorem put_comm (t : Tree) (hpq : p ≠ q) (m n : Node) :
    Alike ((t.put p m).put q n) ((t.put q n).put p m) := by
  refine ⟨rfl, fun r => ?_⟩
  by_cases hp : r = p
  · subst hp
    rw [node?_put_of_ne hpq]
    exact node?_put_congr t (t.put q n) r m
  · rw [node?_put_of_ne hp]
    by_cases hq : r = q
    · subst hq
      exact node?_put_congr (t.put p m) t r n
    · rw [node?_put_of_ne hq, node?_put_of_ne hq, node?_put_of_ne hp]

end CoreBench.Files.Tree
