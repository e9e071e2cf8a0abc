import CoreBench.Proofs.Text.Cut
import CoreBench.Proofs.Text.Utf8

/-!
Texts addressed by octets. A text is held as its UTF-8 octets, and a part of it is named by the offsets of its two
ends. Not every two offsets name a part: one of them may be behind the end of the text or inside a character, and the
second one may be ahead of the first.

What is proved:
  * `length_octets`: the width of a text is the number of octets of its UTF-8 form;
  * `splitAt?_eq_some_iff`: the offsets at which a text can be split are the widths of its starts;
  * `slice?_append`: the offsets of the two ends of a part name that part;
  * `slice?_find?`: what is behind, and what is ahead of, the first occurrence of a text can be named by the offset
    where it was found.
-/

namespace CoreBench.Text

/-- The number of octets of a text. -/
def width : List Char → Nat
  | [] => 0
  | c :: s => c.utf8Size + width s

theorem width_append (u v : List Char) : width (u ++ v) = width u + width v := by
  induction u with
  | nil => rw [List.nil_append, width, Nat.zero_add]
  | cons c u ih => rw [List.cons_append, width, width, ih, Nat.add_assoc]

theorem width_eq_utf8ByteSize (s : List Char) : width s = (String.ofList s).utf8ByteSize := by
  induction s with
  | nil => rfl
  | cons c s ih => rw [width, ih, String.ofList_cons, String.utf8ByteSize_append, String.utf8ByteSize_singleton]

/-- The width of a text is the number of octets that it is stored as. -/
theorem length_octets (s : String) : (octets s).length = width s.toList := by
  rw [width_eq_utf8ByteSize, String.ofList_toList, octets, toList_eq]
  rfl

/-- A text without octets is empty. -/
theorem width_eq_zero_iff {u : List Char} : width u = 0 ↔ u = [] := by
  cases u with
  | nil => exact ⟨fun _ => rfl, fun _ => rfl⟩
  | cons c u =>
    have := c.utf8Size_pos
    constructor
    · intro h
      rw [width] at h
      omega
    · intro h
      cases h

/-- A text split at an offset, unless that is behind its end or inside a character. -/
def splitAt? : Nat → List Char → Option (List Char × List Char)
  | 0, s => some ([], s)
  | _ + 1, [] => none
  | n + 1, c :: s =>
    if c.utf8Size ≤ n + 1 then (splitAt? (n + 1 - c.utf8Size) s).map fun p => (c :: p.1, p.2) else none

theorem splitAt?_zero_iff {s u v : List Char} : splitAt? 0 s = some (u, v) ↔ s = u ++ v ∧ width u = 0 := by
  rw [splitAt?, width_eq_zero_iff]
  constructor
  · intro h
    obtain ⟨rfl, rfl⟩ := Prod.mk.inj (Option.some.inj h)
    exact ⟨rfl, rfl⟩
  · rintro ⟨rfl, rfl⟩
    rfl

/-- A text is split at an offset exactly if that is the width of one of its starts. -/
theorem splitAt?_eq_some_iff {n : Nat} {s u v : List Char} :
    splitAt? n s = some (u, v) ↔ s = u ++ v ∧ width u = n := by
  induction s generalizing n u with
  | nil =>
    cases n with
    | zero => exact splitAt?_zero_iff
    | succ n =>
      constructor
      · intro h
        cases h
      · rintro ⟨h, hwidth⟩
        obtain ⟨rfl, rfl⟩ := List.append_eq_nil_iff.mp h.symm
        cases hwidth
  | cons c s ih =>
    cases n with
    | zero => exact splitAt?_zero_iff
    | succ n =>
      rw [splitAt?]
      constructor
      · intro h
        split at h
        · next hle =>
          obtain ⟨⟨u', v'⟩, hsplit, hpair⟩ := Option.map_eq_some_iff.mp h
          obtain ⟨rfl, rfl⟩ := Prod.mk.inj hpair
          obtain ⟨rfl, hwidth⟩ := ih.mp hsplit
          exact ⟨rfl, by rw [width, hwidth, Nat.add_sub_cancel' hle]⟩
        · cases h
      · rintro ⟨h, hwidth⟩
        cases u with
        | nil => cases hwidth
        | cons d u =>
          obtain ⟨rfl, rfl⟩ := List.cons.inj h
          rw [width] at hwidth
          rw [if_pos (by omega), ih.mpr ⟨rfl, by omega⟩]
          rfl

/-- The part of a text between two offsets, if they name one. -/
def slice? (s : List Char) (start stop : Nat) : Option (List Char) :=
  match splitAt? start s with
  | none => none
  | some (_, rest) => if start ≤ stop then (splitAt? (stop - start) rest).map Prod.fst else none

/-- The offsets of the two ends of a part name that part. -/
theorem slice?_append (u v w : List Char) : slice? (u ++ (v ++ w)) (width u) (width u + width v) = some v := by
  have hstart : splitAt? (width u) (u ++ (v ++ w)) = some (u, v ++ w) := splitAt?_eq_some_iff.mpr ⟨rfl, rfl⟩
  have hstop : splitAt? (width u + width v - width u) (v ++ w) = some (v, w) :=
    splitAt?_eq_some_iff.mpr ⟨rfl, by omega⟩
  rw [slice?, hstart]
  simp only [hstop]
  rw [if_pos (Nat.le_add_right _ _)]
  rfl

/-- The two octets of the first character are no part of it each. -/
example : slice? ['é', 'b'] 1 3 = none ∧ slice? ['é', 'b'] 2 3 = some ['b'] := by decide

/-- The offset of the first occurrence of a text. -/
def find? (sep s : List Char) : Option Nat :=
  (cut? sep s).map fun p => width p.1

/-- What an offset that was found says: the text ahead of the occurrence and the text behind it both have names. -/
theorem slice?_find? {sep s u v : List Char} (h : cut? sep s = some (u, v)) :
    find? sep s = some (width u) ∧ slice? s 0 (width u) = some u ∧
      slice? s (width u + width sep) (width s) = some v := by
  obtain ⟨rfl, -⟩ := cut?_eq_some_iff.mp h
  refine ⟨by rw [find?, h]; rfl, ?_, ?_⟩
  · have := slice?_append [] u (sep ++ v)
    rwa [List.nil_append, width, Nat.zero_add] at this
  · have := slice?_append (u ++ sep) v []
    rwa [List.append_nil, List.append_assoc, ← width_append, List.append_assoc, width_append u sep] at this

end CoreBench.Text
