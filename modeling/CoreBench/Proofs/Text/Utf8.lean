import CoreBench.Text.Cut

/-!
Texts and octets. The octets of a text spell that text again, so a file that holds the octets of a text is read as
that text.

What is proved:
  * `toList_eq`: the octets of an array one by one;
  * `octets_append`, `octets_join`: texts one behind the other have their octets one behind the other;
  * `ofOctets?_octets`, `ofOctets?_eq_some_iff`: what the octets of a text spell, and that no others spell it;
  * `octets_inj`: no two texts have the same octets.
-/

namespace CoreBench.Text

/-- From the position `i` on, the octets of an array go behind those collected. -/
theorem toList_loop (b : ByteArray) (i : Nat) (r : Octets) :
    ByteArray.toList.loop b i r = r.reverse ++ b.data.toList.drop i := by
  unfold ByteArray.toList.loop
  split
  · next h =>
    have hlen : i < b.data.toList.length := h
    have hget : b.data.toList[i] = b.get! i := (getElem!_pos b.data i h).symm
    rw [toList_loop b (i + 1), List.drop_eq_getElem_cons hlen, hget, List.reverse_cons,
      List.append_assoc]
    rfl
  · next h =>
    have hlen : b.data.toList.length ≤ i := Nat.le_of_not_lt h
    rw [List.drop_eq_nil_of_le hlen, List.append_nil]
termination_by b.size - i

theorem toList_eq (b : ByteArray) : b.toList = b.data.toList :=
  toList_loop b 0 []

theorem octets_append (s t : String) : octets (s ++ t) = octets s ++ octets t := by
  rw [octets, octets, octets, toList_eq, toList_eq, toList_eq, String.toUTF8, String.toByteArray_append,
    ByteArray.data_append, Array.toList_append]
  rfl

theorem octets_join (l : List String) : octets (String.join l) = l.flatMap octets := by
  induction l with
  | nil => rw [String.join_nil, octets, toList_eq, List.flatMap_nil]; rfl
  | cons s l ih => rw [String.join_cons, octets_append, ih, List.flatMap_cons]

/-- The octets of a text spell it. -/
theorem ofOctets?_octets (s : String) : ofOctets? (octets s) = some s := by
  rw [ofOctets?, octets, toList_eq, Array.toArray_toList, String.fromUTF8?]
  exact dif_pos s.isValidUTF8

theorem octets_inj {s t : String} (h : octets s = octets t) : s = t := by
  have hsame := ofOctets?_octets s
  rw [h, ofOctets?_octets] at hsame
  exact (Option.some.inj hsame).symm

/-- No other octets spell a text than its own. -/
theorem ofOctets?_eq_some_iff {b : Octets} {s : String} : ofOctets? b = some s ↔ b = octets s := by
  constructor
  · intro h
    rw [ofOctets?, String.fromUTF8?] at h
    split at h
    · obtain rfl := Option.some.inj h
      rw [octets, toList_eq]
      rfl
    · cases h
  · rintro rfl
    exact ofOctets?_octets s

end CoreBench.Text
