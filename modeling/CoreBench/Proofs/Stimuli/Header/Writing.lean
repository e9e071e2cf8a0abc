import CoreBench.Proofs.Files.Writer
import CoreBench.Proofs.Text.Utf8
import CoreBench.Stimuli.Header.Writer

/-!
Headers written to writers that fail. Here a header is written as it is made, by loops within loops, and each text that
goes into it is written on its own, by as many calls as the writer likes. Each of these steps may fail, and what comes
behind a failure is nothing.

What is proved:
  * `arrayTo_writes`, `headerTo_writes`: the loops write the arrays and the header that they are for;
  * `writeHeader_takes_start`: what a writer with limited room takes of a header, and when it takes it all.
-/

namespace CoreBench.Stimuli

open CoreBench.Files CoreBench.Text

namespace Header

variable (portion : Octets → Octets → Nat)

/-- Writes texts one behind the other. -/
def textsTo (texts : List String) : Writing Unit := do
  for text in texts do
    Writing.writeAll portion (octets text)

/-- Writes a row of an array, element by element. -/
def rowTo (row : List Int32) : Writing Unit := do
  textsTo portion ["\n\t"]
  for v in row do
    textsTo portion [intText v.toInt, ","]

/-- Writes an array, row by row. -/
def arrayTo (name : String) (m : Matrix) : Writing Unit := do
  textsTo portion ["const int ", name, "[] = \x7b"]
  for row in m.rows do
    rowTo portion row
  textsTo portion ["\n\x7d;\n\n"]

/-- Writes the header of a case. -/
def headerTo (c : Case) (sect : String) : Writing Unit := do
  arrayTo portion "m_a" c.a
  arrayTo portion "m_b" c.b
  arrayTo portion "m_exp" c.expected
  textsTo portion ["#define SIZE ", toString c.params.size, "\n"]
  for buffer in ["g_mA", "g_mB", "g_mC", "g_mB_tmp"] do
    textsTo portion ["__attribute__ ((section(\"", sect, "\"))) int ", buffer, "[SIZE][SIZE];", "\n"]

open Writing

theorem textsTo_writes (texts : List String) :
    Writes (textsTo portion texts) ⟨⟩ (octets (String.join texts)) := by
  rw [octets_join]
  refine Writes.bind_pure (a := ⟨⟩) ?_ _
  apply Writes.forIn
  intro text _
  exact (Writes.writeAll portion (octets text)).bind_pure _

theorem rowTo_writes (row : List Int32) :
    Writes (rowTo portion row) ⟨⟩ ((rowPieces row).flatMap octets) := by
  rw [rowPieces, List.flatMap_cons, List.flatMap_map]
  apply Writes.bind (textsTo_writes portion ["\n\t"])
  refine Writes.bind_pure (a := ⟨⟩) ?_ _
  apply Writes.forIn
  intro v _
  exact (textsTo_writes portion [intText v.toInt, ","]).bind_pure _

/-- The loops over rows and elements write the array. -/
theorem arrayTo_writes (name : String) (m : Matrix) :
    Writes (arrayTo portion name m) ⟨⟩ ((arrayPieces name m).flatMap octets) := by
  have hopening : String.join ["const int ", name, "[] = \x7b"] = arrayOpening name := by
    simp [String.join, arrayOpening]
  rw [arrayPieces, List.flatMap_append, List.flatMap_cons, List.flatMap_assoc, List.append_assoc, ← hopening]
  apply Writes.bind (textsTo_writes portion _)
  apply Writes.bind (a := ⟨⟩)
  · apply Writes.forIn
    intro row _
    exact (rowTo_writes portion row).bind_pure _
  · rw [← octets_join]
    exact textsTo_writes portion _

/-- The header is written as a whole. -/
theorem headerTo_writes (c : Case) (sect : String) :
    Writes (headerTo portion c sect) ⟨⟩ (octets (c.header sect)) := by
  have hsize : String.join ["#define SIZE ", toString c.params.size, "\n"] = sizeLine c.params.size := by
    simp [String.join, sizeLine]
  have hbuffer : ∀ name, String.join ["__attribute__ ((section(\"", sect, "\"))) int ", name, "[SIZE][SIZE];", "\n"]
      = bufferLine sect name := by
    intro name
    simp [String.join, bufferLine, bufferOpening, bufferMiddle, bufferClosing]
  rw [Case.header, octets_join, Case.headerPieces, List.flatMap_append, List.flatMap_append, List.flatMap_append,
    List.flatMap_cons, List.flatMap_map, ← hsize]
  simp only [List.append_assoc]
  apply Writes.bind (arrayTo_writes portion _ _)
  apply Writes.bind (arrayTo_writes portion _ _)
  apply Writes.bind (arrayTo_writes portion _ _)
  apply Writes.bind (textsTo_writes portion _)
  refine Writes.bind_pure (a := ⟨⟩) ?_ _
  apply Writes.forIn
  intro name _
  rw [← hbuffer]
  exact (textsTo_writes portion _).bind_pure _

/-- The pieces that a header is written in are the header. -/
theorem flatten_headerPieces (c : Case) (sect : String) :
    ((c.headerPieces sect).map octets).flatten = octets (c.header sect) := by
  rw [Case.header, octets_join, List.flatMap_def]

/-- **A writer that fails has the start of the header.** A header is written without a fault exactly if there is room
for all of it, and what has been taken is as much of its start as there is room for. The loops that make the header
come to the same on any such writer: nothing is left out or taken twice on the way, whatever portions the writer takes
at a time, and behind its failure nothing more is written, though it would be taken. -/
theorem writeHeader_takes_start (c : Case) (sect : String) (room : Nat) :
    let text := octets (c.header sect)
    ((c.writeHeader sect room).2 = none ↔ text.length ≤ room) ∧
    (c.writeHeader sect room).1 = text.take (min room text.length) ∧
    ∀ portion, ∃ answer left,
      outcome (headerTo portion c sect) ⟨some room, []⟩ = (answer, ⟨left, text.take (min room text.length)⟩) ∧
      (answer = .ok ⟨⟩ ↔ text.length ≤ room) ∧
      ∀ f, answer = .error f ↔ (c.writeHeader sect room).2 = some f := by
  intro text
  have htaken : (c.writeHeader sect room).1 = text.take room := by
    rw [Case.writeHeader, writeUpTo_fst, flatten_headerPieces]
  have hfault : (c.writeHeader sect room).2 = if text.length ≤ room then none else some .stalled := by
    rw [Case.writeHeader, writeUpTo_snd, flatten_headerPieces]
  have htake : text.take (min room text.length) = text.take room := by
    rw [← List.take_take, List.take_length]
  rw [htaken, hfault, htake]
  have hwrites : ∀ portion, Writes (headerTo portion c sect) ⟨⟩ text := fun portion => headerTo_writes portion c sect
  by_cases hfits : text.length ≤ room
  · rw [if_pos hfits]
    refine ⟨iff_of_true rfl hfits, rfl, fun portion => ?_⟩
    have hrun := hwrites portion room []
    rw [if_pos hfits, List.nil_append] at hrun
    rw [List.take_of_length_le hfits]
    exact ⟨_, _, hrun, iff_of_true rfl hfits, fun f => by simp⟩
  · rw [if_neg hfits]
    refine ⟨iff_of_false (by simp) hfits, rfl, fun portion => ?_⟩
    have hrun := hwrites portion room []
    rw [if_neg hfits, List.nil_append] at hrun
    exact ⟨_, _, hrun, iff_of_false (by simp) hfits, fun f => by simp⟩

end Header

end CoreBench.Stimuli
