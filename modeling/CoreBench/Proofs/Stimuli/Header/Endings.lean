import CoreBench.Proofs.Stimuli.Header.Check
import CoreBench.Proofs.Text.Endings

/-!
Headers with other endings of lines. The size and the buffers are on lines without the blanks around them, so they do
not notice a carriage return at the end of a line. An array is found by its opening and its end, which have no newline
in them, and its elements are between commas, where carriage returns are blanks. The one place that shows how lines
end is an element at fault with a newline within it.

What is proved:
  * `readSize_withReturns`, `readBuffers_withReturns`: what is found on lines;
  * `arrayItems_withReturns`, `readMatrix_withReturns`: what is found between an opening and an end;
  * `read_withReturns`: a text is read as the same header, or refused for the same reason.
-/

namespace CoreBench.Stimuli

open CoreBench.Text

/-- The same fault, shown as it is in a text with carriage returns. -/
def HeaderFault.returned : HeaderFault → HeaderFault
  | .badElement item name fault => .badElement (String.ofList (withReturns item.toList)) name fault
  | f => f

/-- The same error, shown as it is in a text with carriage returns. -/
def StimuliError.returned : StimuliError → StimuliError
  | .parse f => .parse f.returned
  | e => e

namespace Header

/-! ## Lines -/

theorem readSize_withReturns (s : List Char) : readSize (withReturns s) = readSize s := by
  have hlines : ∀ t, (lines t).findSome? (fun l => after? sizeDirective (trim l))
      = ((lines t).map trim).findSome? (after? sizeDirective) := by
    intro t
    rw [List.findSome?_map]
    rfl
  rw [readSize, readSize, hlines, hlines, map_trim_lines_withReturns]

/-- A size at fault is shown without the blanks around its line. -/
theorem readSize_returned (s : List Char) : (readSize s).mapError HeaderFault.returned = readSize s := by
  rw [readSize]
  split
  · rfl
  · split
    · rfl
    · split <;> rfl

/-- The blanks around lines have no meaning to buffers. -/
theorem readBuffers_map_trim (ls : List (List Char)) : readBuffers (ls.map trim) = readBuffers ls := by
  induction ls with
  | nil => rfl
  | cons l ls ih =>
    obtain ⟨-, hhead, hlast⟩ := trims_trim l
    rw [List.map_cons, readBuffers, readBuffers, ih, trim_eq_self hhead hlast]

theorem readBuffers_withReturns (s : List Char) : readBuffers (lines (withReturns s)) = readBuffers (lines s) := by
  rw [← readBuffers_map_trim (lines (withReturns s)), map_trim_lines_withReturns, readBuffers_map_trim]

/-- A line at fault is shown without the blanks around it. -/
theorem readBuffers_returned (ls : List (List Char)) :
    (readBuffers ls).mapError HeaderFault.returned = readBuffers ls := by
  cases h : readBuffers ls with
  | error f =>
    obtain ⟨l, rfl⟩ := readBuffers_error h
    rfl
  | ok bs => rfl

/-! ## Arrays -/

/-- The items are the same, each with its own carriage returns. -/
theorem arrayItems_withReturns (body : List Char) :
    arrayItems (withReturns body) = (arrayItems body).map withReturns := by
  have htrim : ((pieces ',' body).map withReturns).map trim = ((pieces ',' body).map trim).map withReturns := by
    rw [List.map_map, List.map_map]
    exact List.map_congr_left fun t _ => trim_withReturns t
  have hblank : ∀ t : List Char, decide (withReturns t ≠ []) = decide (t ≠ []) := fun t =>
    decide_eq_decide.mpr (not_congr withAhead_eq_nil_iff)
  calc arrayItems (withReturns body)
      = (((pieces ',' body).map withReturns).map trim).filter (· ≠ []) := by
        rw [arrayItems, withReturns, pieces_withAhead (by decide) (by decide)]
        rfl
    _ = (((pieces ',' body).map trim).map withReturns).filter (· ≠ []) := by rw [htrim]
    _ = (arrayItems body).map withReturns := by
        rw [List.filter_map, arrayItems]
        exact congrArg (List.map withReturns) (List.filter_congr fun t _ => hblank t)

theorem readElements_withReturns (name : String) (acc : Array Int32) (items : List (List Char)) :
    readElements name acc (items.map withReturns) = (readElements name acc items).mapError HeaderFault.returned := by
  induction items generalizing acc with
  | nil => rfl
  | cons item items ih =>
    rw [List.map_cons, readElements, readElements, readInt_withReturns]
    cases readInt (maxInt32 + 1) maxInt32 item with
    | error f =>
      show Except.error _ = Except.error (HeaderFault.returned (.badElement (String.ofList item) name f))
      rw [HeaderFault.returned, String.toList_ofList]
    | ok i => exact ih _

section

variable {name : String} (hsep : '\n' ∉ (arrayOpening name).toList) (hmark : '\r' ∉ (arrayOpening name).toList)

include hsep hmark

theorem readArray_withReturns (s : List Char) :
    readArray name (withReturns s) = (readArray name s).mapError HeaderFault.returned := by
  obtain ⟨x, p, hp⟩ : ∃ x p, (arrayOpening name).toList = x :: p :=
    ⟨'c', ("onst int " ++ name ++ "[] = \x7b").toList, by simp [arrayOpening]⟩
  rw [hp] at hsep hmark
  rw [readArray, readArray, arrayBody, arrayBody, hp, withReturns, cut?_withAhead hsep hmark]
  cases cut? (x :: p) s with
  | none => rfl
  | some q =>
    have hend : cut? ['\x7d', ';'] (withReturns q.2)
        = (cut? ['\x7d', ';'] q.2).map fun r => (withReturns r.1, withReturns r.2) :=
      cut?_withAhead (by decide) (by decide) q.2
    rw [withReturns] at hend
    simp only [Option.map_some, hend]
    cases cut? ['\x7d', ';'] q.2 with
    | none => rfl
    | some r =>
      show readElements name #[] (arrayItems (withReturns r.1)) = _
      rw [arrayItems_withReturns, readElements_withReturns]

/-- The matrix of an array is the same. -/
theorem readMatrix_withReturns (n : Nat) (s : List Char) :
    readMatrix n name (withReturns s) = (readMatrix n name s).mapError StimuliError.returned := by
  rw [readMatrix, readMatrix, readArray_withReturns hsep hmark]
  cases readArray name s with
  | error f => rfl
  | ok cells =>
    show Matrix.ofCells? n cells = (Matrix.ofCells? n cells).mapError StimuliError.returned
    rw [Matrix.ofCells?]
    split
    · rfl
    · split <;> rfl

end

/-! ## Whole texts -/

/-- What is read from a text with carriage returns is what is read from it without them. -/
theorem read_withReturns_eq (s : List Char) : read (withReturns s) = (read s).mapError StimuliError.returned := by
  have hparse : ∀ {α : Type} (r : Except HeaderFault α), r.mapError HeaderFault.returned = r →
      (r.mapError StimuliError.parse).mapError StimuliError.returned = r.mapError StimuliError.parse := by
    intro α r hr
    cases r with
    | error f => exact congrArg (fun r => Except.mapError StimuliError.parse r) hr
    | ok a => rfl
  have ha : ∀ n, readMatrix n operandA (withReturns s) = (readMatrix n operandA s).mapError StimuliError.returned :=
    fun n => readMatrix_withReturns (by decide) (by decide) n s
  have hb : ∀ n, readMatrix n operandB (withReturns s) = (readMatrix n operandB s).mapError StimuliError.returned :=
    fun n => readMatrix_withReturns (by decide) (by decide) n s
  have he : ∀ n, readMatrix n product (withReturns s) = (readMatrix n product s).mapError StimuliError.returned :=
    fun n => readMatrix_withReturns (by decide) (by decide) n s
  rw [read, read]
  simp only [mapError_bind, ha, hb, he, readSize_withReturns, readBuffers_withReturns, hparse _ (readSize_returned s),
    hparse _ (readBuffers_returned (lines s))]
  rfl

/-- **How lines end makes no difference.** A text is read as a header exactly if it is read as the same header with a
carriage return ahead of each newline, and it is refused exactly if it is refused then, for the same reason. -/
theorem read_withReturns (s : List Char) :
    (∀ h, read (withReturns s) = .ok h ↔ read s = .ok h) ∧
      ∀ e, read (withReturns s) = .error e ↔ ∃ e', read s = .error e' ∧ e = e'.returned := by
  rw [read_withReturns_eq]
  cases read s with
  | error e' =>
    show (∀ h, Except.error e'.returned = Except.ok h ↔ _) ∧ ∀ e, Except.error e'.returned = Except.error e ↔ _
    constructor
    · intro h
      constructor <;> exact nofun
    · intro e
      constructor
      · intro he
        exact ⟨e', rfl, (Except.error.inj he).symm⟩
      · rintro ⟨e'', he, rfl⟩
        rw [Except.error.inj he]
  | ok h' =>
    show (∀ h, Except.ok h' = Except.ok h ↔ _) ∧ ∀ e, Except.ok h' = Except.error e ↔ _
    constructor
    · intro h
      exact Iff.rfl
    · intro e
      constructor
      · exact nofun
      · rintro ⟨e'', he, -⟩
        cases he

end Header

end CoreBench.Stimuli
