import CoreBench.Files.Sink

/-!
Writers that fail, call by call. A writer takes of each call as much as it likes, though at least one octet, until its
room is used up; then it fails once, and behind that it takes whatever comes, so that a program which goes on in spite
of a failure is found out by what was taken.

`Writes x a d` says that a run of `x` answers `a` once it has written `d`, and that it ends with the fault if there is
no room for `d`, when the start of `d` that there is room for has been taken and nothing else.

What is proved:
  * `writeUpTo_snd`: pieces are taken without a fault exactly if there is room for the whole;
  * `Writes.bind`, `Writes.forIn`: steps and loops write what their parts write, one behind the other;
  * `Writes.writeAll`: octets are written by calls until none is left.
-/

namespace CoreBench.Files

open CoreBench.Text

/-- Pieces are taken without a fault exactly if there is room for the whole, however it is cut. -/
theorem writeUpTo_snd (room : Nat) (ps : List Octets) :
    (writeUpTo room ps).2 = if ps.flatten.length ≤ room then none else some .stalled := by
  induction ps generalizing room with
  | nil => simp [writeUpTo]
  | cons p ps ih =>
    rw [writeUpTo, List.flatten_cons, List.length_append]
    by_cases hp : p.length ≤ room
    · have hrest : p.length + ps.flatten.length ≤ room ↔ ps.flatten.length ≤ room - p.length := by omega
      simp only [if_pos hp, ih, hrest]
    · have hall : ¬ p.length + ps.flatten.length ≤ room := by omega
      simp only [if_neg hp, if_neg hall]

/-- A writer: how many octets it has room for, if it has not failed yet, and those that it has taken. -/
structure Writer where
  room : Option Nat
  taken : Octets

/-- A step of writing answers with an `α` or ends with a fault. -/
abbrev Writing (α : Type) := ExceptT Fault (StateM Writer) α

namespace Writing

variable {α β : Type}

/-- What a step comes to, and the writer behind it. -/
def outcome (x : Writing α) (w : Writer) : Except Fault α × Writer :=
  x.run.run w

theorem outcome_bind (x : Writing α) (f : α → Writing β) (w : Writer) :
    outcome (x >>= f) w =
      match outcome x w with
      | (.ok a, w) => outcome (f a) w
      | (.error e, w) => (.error e, w) := by
  show StateT.bind x (ExceptT.bindCont f) w = _
  unfold outcome ExceptT.run StateT.run
  show (match x w with | (r, w) => ExceptT.bindCont f r w) = _
  rcases x w with ⟨r, w⟩
  cases r <;> rfl

/-! ## Calls -/

section

variable (portion : Octets → Octets → Nat)

/-- One call with at least one octet to write: what it leaves to be written. How much is taken depends on what has been
taken and on what there is to take. -/
def offer (c : UInt8) (p : Octets) : Writing { rest : Octets // rest.length ≤ p.length } := do
  let w ← get
  match w.room with
  | none =>
    set (Writer.mk none (w.taken ++ c :: p))
    pure ⟨[], Nat.zero_le _⟩
  | some 0 =>
    set (Writer.mk none w.taken)
    throw .stalled
  | some (room + 1) =>
    let more := min (portion w.taken (c :: p)) (min room p.length)
    set (Writer.mk (some (room - more)) (w.taken ++ c :: p.take more))
    pure ⟨p.drop more, by simp⟩

/-- Calls until nothing is left to be written. -/
def writeAll : Octets → Writing Unit
  | [] => pure ()
  | c :: p => do
    let rest ← offer portion c p
    writeAll rest
termination_by p => p.length
decreasing_by
  have := rest.2
  simp only [List.length_cons]
  omega

theorem outcome_offer_zero (c : UInt8) (p taken : Octets) :
    outcome (offer portion c p) ⟨some 0, taken⟩ = (.error .stalled, ⟨none, taken⟩) :=
  rfl

theorem outcome_offer_succ (c : UInt8) (p : Octets) (room : Nat) (taken : Octets) :
    ∃ k, k ≤ room ∧ k ≤ p.length ∧ ∃ h, outcome (offer portion c p) ⟨some (room + 1), taken⟩ =
      (.ok ⟨p.drop k, h⟩, ⟨some (room - k), taken ++ c :: p.take k⟩) := by
  refine ⟨min (portion taken (c :: p)) (min room p.length), by omega, by omega, by simp, rfl⟩

end

/-! ## What is written -/

/-- A run of `x` answers `a` once it has written `d`; without room for `d` it fails behind the start that there is room
for. -/
def Writes (x : Writing α) (a : α) (d : Octets) : Prop :=
  ∀ room taken, outcome x ⟨some room, taken⟩ =
    if d.length ≤ room then (.ok a, ⟨some (room - d.length), taken ++ d⟩)
    else (.error .stalled, ⟨none, taken ++ d.take room⟩)

namespace Writes

protected theorem pure (a : α) : Writes (pure a) a [] := by
  intro room taken
  simp only [List.length_nil, if_pos (Nat.zero_le room), Nat.sub_zero, List.append_nil]
  rfl

protected theorem bind {x : Writing α} {f : α → Writing β} {a : α} {b : β} {d e : Octets} (hx : Writes x a d)
    (hf : Writes (f a) b e) : Writes (x >>= f) b (d ++ e) := by
  intro room taken
  rw [outcome_bind, hx, List.length_append, List.take_append]
  by_cases hd : d.length ≤ room
  · have hrest : d.length + e.length ≤ room ↔ e.length ≤ room - d.length := by omega
    simp only [if_pos hd, hf (room - d.length), hrest, List.append_assoc, List.take_of_length_le hd, Nat.sub_sub]
  · -- The fault of a step is that of the whole, and no room was left for what is behind it.
    have hall : ¬ d.length + e.length ≤ room := by omega
    have hnone : room - d.length = 0 := by omega
    simp only [if_neg hd, if_neg hall, hnone, List.take_zero, List.append_nil]

/-- An answer of another kind behind a step writes nothing more. -/
protected theorem bind_pure {x : Writing α} {a : α} {d : Octets} (hx : Writes x a d) (b : β) :
    Writes (x >>= fun _ => pure b) b d := by
  have h := Writes.bind (f := fun _ => pure b) hx (Writes.pure b)
  rwa [List.append_nil] at h

protected theorem forIn {l : List α} {f : α → PUnit → Writing (ForInStep PUnit)} {g : α → Octets}
    (hf : ∀ a ∈ l, Writes (f a ⟨⟩) (.yield ⟨⟩) (g a)) : Writes (forIn l ⟨⟩ f) ⟨⟩ (l.flatMap g) := by
  induction l with
  | nil => exact Writes.pure _
  | cons a l ih =>
    rw [List.forIn_cons, List.flatMap_cons]
    apply Writes.bind (hf a List.mem_cons_self)
    exact ih fun a' h => hf a' (List.mem_cons_of_mem a h)

/-- Octets are written by calls until none is left, however many of them each call takes. -/
protected theorem writeAll (portion : Octets → Octets → Nat) (d : Octets) : Writes (writeAll portion d) ⟨⟩ d := by
  induction d using writeAll.induct with
  | case1 =>
    rw [Writing.writeAll]
    exact Writes.pure _
  | case2 c p ih =>
    intro room taken
    rw [Writing.writeAll, outcome_bind]
    cases room with
    | zero => simp [outcome_offer_zero]
    | succ room =>
      obtain ⟨k, hroom, hk, hshorter, hcall⟩ := outcome_offer_succ portion c p room taken
      have hrest := ih ⟨p.drop k, hshorter⟩ (room - k) (taken ++ c :: p.take k)
      rw [List.length_drop] at hrest
      simp only [hcall, hrest, List.length_cons, List.take_succ_cons, List.append_assoc, List.cons_append]
      -- What this call has taken and what the later ones take is one start of the whole.
      by_cases hfits : p.length ≤ room
      · rw [if_pos (Nat.sub_le_sub_right hfits k), if_pos (Nat.succ_le_succ hfits), List.take_append_drop]
        have hroom' : room - k - (p.length - k) = room + 1 - (p.length + 1) := by omega
        rw [hroom']
      · have htake : p.take k ++ (p.drop k).take (room - k) = p.take room := by
          calc p.take k ++ (p.drop k).take (room - k) = (p.take room).take k ++ (p.take room).drop k := by
                rw [List.take_take, Nat.min_eq_left hroom, List.drop_take]
            _ = p.take room := List.take_append_drop k _
        rw [if_neg (by omega), if_neg (by omega), htake]

end Writes

end Writing

end CoreBench.Files
