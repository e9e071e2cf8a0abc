import Mathlib.Data.List.Nodup
import CoreBench.Json.Record
import CoreBench.Proofs.Json.RoundTrip

/-!
Records read back. An object with one member for each field of a record is read as that record, whatever the values are.

What is proved:
  * `record?_ofMembers`: what is written by the names of the fields is read by them.
-/

namespace CoreBench.Json

theorem points_injective {s t : String} (h : points s = points t) : s = t := by
  have htext := congrArg text? h
  rw [text?_points, text?_points] at htext
  exact Option.some.inj htext

variable {ι : Type} {name : ι → String} {l : List ι}

/-- The members of a record, by the names of its fields. -/
theorem members_ofMembers (l : List ι) (name : ι → String) (f : ι → Json) :
    ofMembers (l.map fun i => (name i, f i)) = .object (l.map fun i => (points (name i), f i)) := by
  rw [ofMembers, List.map_map]
  rfl

theorem lookup_members (hnames : (l.map name).Nodup) (f : ι → Json) {i : ι} (hi : i ∈ l) :
    (l.map fun j => (points (name j), f j)).lookup (points (name i)) = some (f i) := by
  induction l with
  | nil => exact absurd hi List.not_mem_nil
  | cons j l ih =>
    rw [List.map_cons, List.nodup_cons] at hnames
    rw [List.map_cons]
    rcases List.mem_cons.mp hi with rfl | hi
    · exact List.lookup_cons_self
    · have hne : points (name i) ≠ points (name j) := fun h =>
        hnames.1 (points_injective h ▸ List.mem_map_of_mem hi)
      rw [List.lookup_cons, beq_false_of_ne hne]
      exact ih hnames.2 hi

/-- No name is given twice. -/
theorem length_filter_members (hnames : (l.map name).Nodup) (f : ι → Json) (n : String) :
    ((l.map fun i => (points (name i), f i)).filter fun m => m.1 = points n).length ≤ 1 := by
  have hcount : (l.map fun i => (points (name i), f i)).countP (fun m => m.1 = points n) = (l.map name).count n := by
    rw [List.count, List.countP_map, List.countP_map]
    apply List.countP_congr
    intro i _
    simp only [Function.comp_apply, decide_eq_true_eq, beq_iff_eq]
    exact ⟨points_injective, congrArg points⟩
  rw [← List.countP_eq_length_filter, hcount]
  exact List.nodup_iff_count_le_one.mp hnames n

/-- A record that is written by the names of its fields is read by them. -/
theorem record?_ofMembers (hnames : (l.map name).Nodup) (f : ι → Json) :
    record? (l.map name) (ofMembers (l.map fun i => (name i, f i))) = some (l.map fun i => some (f i)) := by
  have htexts : (l.map fun i => (points (name i), f i)).all (fun m => (text? m.1).isSome) = true := by
    simp [text?_points]
  have honce : (l.map name).all (fun n =>
      ((l.map fun i => (points (name i), f i)).filter fun m => m.1 = points n).length ≤ 1) = true :=
    List.all_eq_true.mpr fun n _ => decide_eq_true (length_filter_members hnames f n)
  rw [members_ofMembers, record?, htexts, honce, if_pos (by rfl), List.map_map]
  exact congrArg some (List.map_congr_left fun i hi => lookup_members hnames f hi)

theorem exact_ofMembers {f : ι → Json} (h : ∀ i ∈ l, Exact (f i)) :
    Exact (ofMembers (l.map fun i => (name i, f i))) := by
  rw [members_ofMembers]
  refine .object ?_ ?_
  · simp only [List.forall_mem_map]
    exact fun i _ => ⟨name i, rfl⟩
  · simpa only [List.forall_mem_map] using h

end CoreBench.Json
