import Mathlib.Data.List.TakeDrop
import Mathlib.Data.List.TakeWhile
import CoreBench.Json.Reader
import CoreBench.Json.Writer
import CoreBench.Proofs.Text.Decimal

/-!
Documents read back. A value is written without blanks and read with as much fuel as its text is long, twice over: one
unit for each value and one for each item or member that holds it. What is written for a value does not depend on what
follows it, and what follows it only has to be something that no numeral goes on with.

Two kinds of values are not what their texts say: numbers that are no integers are kept as they are spelled, and halves
of surrogate pairs that are written apart are read as one character. `Exact` leaves these out.

What is proved:
  * `number_numeral`: the numeral of an integer is read as that integer;
  * `body_writePoint`: every character is read from what is written for it, escaped or not;
  * `items_write`, `objectMembers_write`: items and members are read up to the end of their list or object;
  * `read_write`: a document that is written for a value is read as that value.
-/

namespace CoreBench.Json

open CoreBench.Text

theorem skipSpace_cons {c : Char} (h : isSpace c = false) (s : List Char) : skipSpace (c :: s) = c :: s :=
  List.dropWhile_cons_of_neg (by simp [h])

/-! ## Numbers -/

/-- What may follow a value: blanks, and what goes on or closes behind an item or a member. -/
def Stops (rest : List Char) : Prop :=
  ∀ c ∈ rest.head?, c = ',' ∨ c = ']' ∨ c = '\x7d' ∨ isSpace c = true

theorem Stops.ne {c : Char} {rest : List Char} (h : Stops (c :: rest)) :
    c.isDigit = false ∧ c ≠ '.' ∧ c ≠ 'e' ∧ c ≠ 'E' := by
  have hspace : ∀ d : Char, isSpace d = true → d = ' ' ∨ d = '\n' ∨ d = '\t' ∨ d = '\r' := by
    intro d hd
    simpa [isSpace, or_assoc] using hd
  rcases h c rfl with rfl | rfl | rfl | h
  · decide
  · decide
  · decide
  · rcases hspace c h with rfl | rfl | rfl | rfl <;> decide

theorem someDigits_append {ds rest : List Char} (hne : ds ≠ []) (hds : ∀ c ∈ ds, c.isDigit = true)
    (hrest : Stops rest) : someDigits (ds ++ rest) = some (ds, rest) := by
  have hspan : (ds ++ rest).span Char.isDigit = (ds, rest) := by
    rw [List.span_eq_takeWhile_dropWhile, List.takeWhile_append_of_pos hds, List.dropWhile_append_of_pos hds]
    cases rest with
    | nil => simp
    | cons c rest => simp [hrest.ne.1]
  obtain ⟨c, ds, rfl⟩ := List.exists_cons_of_ne_nil hne
  rw [someDigits, hspan]

theorem wholePart_digits (n : Nat) {rest : List Char} (hrest : Stops rest) :
    wholePart (digits n ++ rest) = some (digits n, rest) := by
  rw [wholePart, someDigits_append (digits_ne_nil n) (fun _ => isDigit_of_mem_digits) hrest]
  split
  · next heq =>
    -- A zero that digits follow would belong to no number.
    have hzero := (Prod.mk.inj (Option.some.inj heq)).1
    rcases Nat.eq_zero_or_pos n with rfl | hn
    · cases hzero
    · obtain ⟨c, s, hs, hc⟩ := digits_head_ne_zero hn
      rw [hs] at hzero
      exact absurd (List.cons.inj hzero).1 hc
  · rfl

theorem fractionPart_of_stops {rest : List Char} (h : Stops rest) : fractionPart rest = some ([], rest) := by
  cases rest with
  | nil => rfl
  | cons c rest =>
    unfold fractionPart
    split
    · next heq => exact absurd (List.cons.inj heq).1 h.ne.2.1
    · rfl

theorem exponentPart_of_stops {rest : List Char} (h : Stops rest) : exponentPart rest = some ([], rest) := by
  cases rest with
  | nil => rfl
  | cons c rest =>
    unfold exponentPart
    exact if_neg (not_or.mpr h.ne.2.2)

/-- The numeral of an integer is read as that integer, up to where it stops. -/
theorem number_numeral (i : Int) {rest : List Char} (h : Stops rest) :
    number (numeral i ++ rest) = some (.int i, rest) := by
  have hvalue : ∀ n, Nat.ofDigitChars 10 (digits n) 0 = n := fun n => Nat.ofDigitChars_ten_toDigits
  cases i with
  | ofNat n =>
    -- A digit is no sign, so the whole of the numeral is digits.
    obtain ⟨c, s, hs, hc⟩ := digits_eq_cons n
    show number (digits n ++ rest) = _
    unfold number
    split
    next negative t hsign =>
    rw [hs, List.cons_append] at hsign
    split at hsign
    · next heq => exact absurd (List.cons.inj heq).1 (ne_of_isDigit hc rfl)
    · obtain ⟨rfl, rfl⟩ := Prod.mk.inj hsign
      rw [← List.cons_append, ← hs]
      simp only [wholePart_digits n h, Option.bind_eq_bind, Option.bind_some, fractionPart_of_stops h,
        exponentPart_of_stops h, hvalue]
      simp
  | negSucc n =>
    show number ('-' :: (digits (n + 1) ++ rest)) = _
    simp only [number, wholePart_digits (n + 1) h, Option.bind_eq_bind, Option.bind_some, fractionPart_of_stops h,
      exponentPart_of_stops h, hvalue]
    simp [Int.negSucc_eq]

/-! ## Texts -/

/-- A control is written as an escape by number, which is read as its code point. -/
theorem numberEscape_of_lt : ∀ n < 0x20,
    numberEscape n = ['\\', 'u', '0', '0', Nat.digitChar (n / 16), Nat.digitChar (n % 16)] ∧
      hexNumber? 0 ['0', '0', Nat.digitChar (n / 16), Nat.digitChar (n % 16)] = some n := by
  -- The controls are few enough to be looked at one by one.
  decide

theorem body_escape {e : Char} {n : Nat} (hu : e ≠ 'u') (h : escapePoint? e = some n) (acc : Points)
    (t : List Char) : body acc ('\\' :: e :: t) = body (n :: acc) t := by
  rw [body.eq_def]
  simp [h, hu]

theorem body_number {x1 x2 x3 x4 : Char} {n : Nat} (h : hexNumber? 0 [x1, x2, x3, x4] = some n) (acc : Points)
    (t : List Char) : body acc ('\\' :: 'u' :: x1 :: x2 :: x3 :: x4 :: t) = body (addPoint n acc) t := by
  rw [body.eq_def]
  simp [h]

/-- Only the second half of a pair is joined with what stands ahead of it. -/
theorem addPoint_of_lt {n : Nat} (h : n < 0x20) (acc : Points) : addPoint n acc = n :: acc := by
  cases acc with
  | nil => rfl
  | cons m acc =>
    have hhalf : isLowHalf n = false := by
      rw [isLowHalf, Bool.and_eq_false_iff, decide_eq_false_iff_not]
      omega
    rw [addPoint, hhalf, Bool.and_false, if_neg Bool.false_ne_true]

/-- A character is read from what is written for it. -/
theorem body_writePoint (c : Char) (acc : Points) (t : List Char) :
    body acc (writePoint c.toNat ++ t) = body (c.toNat :: acc) t := by
  have hvalid : c.toNat.isValidChar := c.valid
  unfold writePoint
  split_ifs with hq hb h8 h9 hA hC hD hctl
  · rw [hq]
    exact body_escape (by decide) rfl acc t
  · rw [hb]
    exact body_escape (by decide) rfl acc t
  · rw [h8]
    exact body_escape (by decide) rfl acc t
  · rw [h9]
    exact body_escape (by decide) rfl acc t
  · rw [hA]
    exact body_escape (by decide) rfl acc t
  · rw [hC]
    exact body_escape (by decide) rfl acc t
  · rw [hD]
    exact body_escape (by decide) rfl acc t
  · have hlt : c.toNat < 0x20 := hctl.resolve_right (not_not_intro hvalid)
    obtain ⟨hwritten, hread⟩ := numberEscape_of_lt c.toNat hlt
    rw [hwritten, ← addPoint_of_lt hlt]
    exact body_number hread acc t
  · have hmark : c ≠ '"' := fun h => hq (by rw [h]; rfl)
    have hslash : c ≠ '\\' := fun h => hb (by rw [h]; rfl)
    have hplain : ¬ c.toNat < 0x20 := fun h => hctl (Or.inl h)
    rw [Char.ofNat_toNat, body.eq_def]
    simp [hmark, hslash, hplain]

theorem body_flatMap_writePoint (s : List Char) (acc : Points) (rest : List Char) :
    body acc ((s.map Char.toNat).flatMap writePoint ++ '"' :: rest) = some (acc.reverse ++ s.map Char.toNat, rest) := by
  induction s generalizing acc with
  | nil =>
    rw [body.eq_def]
    simp
  | cons c s ih => rw [List.map_cons, List.flatMap_cons, List.append_assoc, body_writePoint, ih, List.reverse_cons,
      List.append_assoc, List.singleton_append]

/-- What is written for a text is read as that text, behind its first mark. -/
theorem body_points (s : String) (rest : List Char) :
    body [] ((points s).flatMap writePoint ++ '"' :: rest) = some (points s, rest) :=
  body_flatMap_writePoint s.toList [] rest

theorem memberName_writeText (s : String) (rest : List Char) :
    memberName (writeText (points s) ++ ':' :: rest) = some (points s, rest) := by
  rw [memberName, writeText, List.append_assoc, List.cons_append, skipSpace_cons rfl]
  simp only [List.singleton_append, body_points, Option.bind_eq_bind, Option.bind_some]
  rw [skipSpace_cons rfl]
  rfl

/-! ## Values -/

/-- A value that is what its text says: it has no numbers but integers, and its texts are made of characters. -/
inductive Exact : Json → Prop
  | null : Exact .null
  | bool (b : Bool) : Exact (.bool b)
  | int (i : Int) : Exact (.int i)
  | text (s : String) : Exact (.text (points s))
  | list {vs : List Json} : (∀ v ∈ vs, Exact v) → Exact (.list vs)
  | object {ms : List (Points × Json)} : (∀ m ∈ ms, ∃ s, m.1 = points s) → (∀ m ∈ ms, Exact m.2) → Exact (.object ms)

/-- The items of a list behind its first one. -/
def itemsText (vs : List Json) : List Char :=
  vs.flatMap fun v => ',' :: write v

/-- A member of an object. -/
def memberText (m : Points × Json) : List Char :=
  writeText m.1 ++ ':' :: write m.2

/-- The members of an object behind its first one. -/
def membersText (ms : List (Points × Json)) : List Char :=
  ms.flatMap fun m => ',' :: memberText m

/-- What a value is to its text, wherever that stands: it is written there and nowhere else, and read from there. -/
structure Spelled (v : Json) : Prop where
  onto : ∀ rest, writeOnto rest v = write v ++ rest
  head : ∃ c t, write v = c :: t ∧ isSpace c = false ∧ c ≠ ']'
  read : ∀ rest fuel, Stops rest → 2 * (write v).length ≤ fuel → value fuel (write v ++ rest) = some (v, rest)

section Lists

variable {rest : List Char}

theorem stops_items (vs : List Json) (rest : List Char) : Stops (itemsText vs ++ ']' :: rest) := by
  intro c hc
  cases vs with
  | nil => exact Or.inr (Or.inl (Option.some.inj hc).symm)
  | cons v vs => exact Or.inl (Option.some.inj hc).symm

theorem stops_members (ms : List (Points × Json)) (rest : List Char) : Stops (membersText ms ++ '\x7d' :: rest) := by
  intro c hc
  cases ms with
  | nil => exact Or.inr (Or.inr (Or.inl (Option.some.inj hc).symm))
  | cons m ms => exact Or.inl (Option.some.inj hc).symm

theorem itemsText_cons (v : Json) (vs : List Json) : itemsText (v :: vs) = ',' :: (write v ++ itemsText vs) := rfl

theorem membersText_cons (m : Points × Json) (ms : List (Points × Json)) :
    membersText (m :: ms) = ',' :: (memberText m ++ membersText ms) := rfl

theorem writeItems_eq {vs : List Json} (h : ∀ v ∈ vs, Spelled v) (rest : List Char) :
    writeItems rest vs = itemsText vs ++ rest := by
  induction vs with
  | nil => rfl
  | cons v vs ih =>
    obtain ⟨hv, hvs⟩ := List.forall_mem_cons.mp h
    rw [writeItems, hv.onto, ih hvs, itemsText_cons, List.cons_append, List.append_assoc]

theorem writeMember_eq {m : Points × Json} (h : Spelled m.2) (rest : List Char) :
    writeMember rest m = memberText m ++ rest := by
  obtain ⟨k, v⟩ := m
  rw [writeMember, h.onto, memberText, List.append_assoc, List.cons_append]

theorem writeMembers_eq {ms : List (Points × Json)} (h : ∀ m ∈ ms, Spelled m.2) (rest : List Char) :
    writeMembers rest ms = membersText ms ++ rest := by
  induction ms with
  | nil => rfl
  | cons m ms ih =>
    obtain ⟨hm, hms⟩ := List.forall_mem_cons.mp h
    rw [writeMembers, writeMember_eq hm, ih hms, membersText_cons, List.cons_append, List.append_assoc]

/-- The items of a list are read up to its closing bracket. -/
theorem items_write {v : Json} {vs : List Json} (hv : Spelled v) (hvs : ∀ w ∈ vs, Spelled w) {fuel : Nat}
    (hfuel : 2 * (write v ++ itemsText vs).length < fuel) :
    items fuel (write v ++ (itemsText vs ++ ']' :: rest)) = some (v :: vs, rest) := by
  induction vs generalizing v fuel with
  | nil =>
    obtain ⟨fuel, rfl⟩ := Nat.exists_eq_succ_of_ne_zero (Nat.ne_zero_of_lt hfuel)
    rw [List.length_append] at hfuel
    rw [items, hv.read _ fuel (stops_items [] rest) (by omega)]
    rfl
  | cons w vs ih =>
    obtain ⟨fuel, rfl⟩ := Nat.exists_eq_succ_of_ne_zero (Nat.ne_zero_of_lt hfuel)
    obtain ⟨hw, hvs⟩ := List.forall_mem_cons.mp hvs
    rw [List.length_append, itemsText_cons, List.length_cons] at hfuel
    have hnext : items fuel (write w ++ (itemsText vs ++ ']' :: rest)) = some (w :: vs, rest) := ih hw hvs (by omega)
    rw [items, hv.read _ fuel (stops_items (w :: vs) rest) (by omega), itemsText_cons, List.cons_append,
      List.append_assoc]
    simp only [Option.bind_eq_bind, Option.bind_some]
    rw [skipSpace_cons rfl]
    simp only [hnext, Option.bind_some]

theorem length_memberText (m : Points × Json) : (write m.2).length < (memberText m).length := by
  rw [memberText, List.length_append, List.length_cons]
  omega

/-- The name of a member and its value are read up to what stops it. -/
theorem memberName_memberText {m : Points × Json} (hname : ∃ s, m.1 = points s) (t : List Char) :
    memberName (memberText m ++ t) = some (m.1, write m.2 ++ t) := by
  obtain ⟨k, v⟩ := m
  obtain ⟨s, rfl⟩ := hname
  rw [memberText, List.append_assoc, List.cons_append, memberName_writeText]

/-- The members of an object are read up to its closing brace. -/
theorem objectMembers_write {m : Points × Json} {ms : List (Points × Json)} (hname : ∀ n ∈ m :: ms, ∃ s, n.1 = points s)
    (hvalue : ∀ n ∈ m :: ms, Spelled n.2) {fuel : Nat} (hfuel : 2 * (memberText m ++ membersText ms).length < fuel) :
    objectMembers fuel (memberText m ++ (membersText ms ++ '\x7d' :: rest)) = some (m :: ms, rest) := by
  induction ms generalizing m fuel with
  | nil =>
    obtain ⟨fuel, rfl⟩ := Nat.exists_eq_succ_of_ne_zero (Nat.ne_zero_of_lt hfuel)
    have hm := hvalue m List.mem_cons_self
    have hlength := length_memberText m
    rw [List.length_append] at hfuel
    rw [objectMembers, memberName_memberText (hname m List.mem_cons_self)]
    simp only [Option.bind_eq_bind, Option.bind_some]
    rw [hm.read _ fuel (stops_members [] rest) (by omega)]
    rfl
  | cons n ms ih =>
    obtain ⟨fuel, rfl⟩ := Nat.exists_eq_succ_of_ne_zero (Nat.ne_zero_of_lt hfuel)
    obtain ⟨hm, hvalues⟩ := List.forall_mem_cons.mp hvalue
    have hlength := length_memberText m
    rw [List.length_append, membersText_cons, List.length_cons] at hfuel
    have hnext : objectMembers fuel (memberText n ++ (membersText ms ++ '\x7d' :: rest)) = some (n :: ms, rest) :=
      ih (fun k hk => hname k (List.mem_cons_of_mem m hk)) hvalues (by omega)
    rw [objectMembers, memberName_memberText (hname m List.mem_cons_self)]
    simp only [Option.bind_eq_bind, Option.bind_some]
    rw [hm.read _ fuel (stops_members (n :: ms) rest) (by omega), membersText_cons, List.cons_append, List.append_assoc]
    simp only [Option.bind_some]
    rw [skipSpace_cons rfl]
    simp only [hnext, Option.bind_some]

end Lists

/-! ## Documents -/

theorem value_text (s : String) (fuel : Nat) (rest : List Char) :
    value (fuel + 1) (writeText (points s) ++ rest) = some (.text (points s), rest) := by
  rw [writeText, List.append_assoc, List.cons_append, value, skipSpace_cons rfl]
  simp only [if_true, List.singleton_append, body_points, Option.map_some]

/-- What starts with neither a closing bracket nor a blank are the items of a list. -/
theorem value_list {c : Char} (hspace : isSpace c = false) (hclose : c ≠ ']') (fuel : Nat) (s : List Char) :
    value (fuel + 1) ('[' :: c :: s) = (items fuel (c :: s)).map fun (vs, s) => (.list vs, s) := by
  rw [value, skipSpace_cons rfl]
  simp only [skipSpace_cons hspace]
  rw [if_neg (by decide), if_pos trivial]
  split
  · next heq => exact absurd (List.cons.inj heq).1 hclose
  · rfl

/-- The same with the members of an object. -/
theorem value_object {c : Char} (hspace : isSpace c = false) (hclose : c ≠ '\x7d') (fuel : Nat) (s : List Char) :
    value (fuel + 1) ('\x7b' :: c :: s) = (objectMembers fuel (c :: s)).map fun (ms, s) => (.object ms, s) := by
  rw [value, skipSpace_cons rfl]
  simp only [skipSpace_cons hspace]
  rw [if_neg (by decide), if_neg (by decide), if_pos trivial]
  split
  · next heq => exact absurd (List.cons.inj heq).1 hclose
  · rfl

/-- What an integer may start with is not what anything else starts with. -/
theorem ne_of_numeral_head {c d : Char} (h : c = '-' ∨ c.isDigit = true) (hsign : d ≠ '-')
    (hdigit : d.isDigit = false) : c ≠ d := by
  rintro rfl
  rcases h with h | h
  · exact hsign h
  · exact Bool.noConfusion (h.symm.trans hdigit)

theorem isSpace_of_numeral_head {c : Char} (h : c = '-' ∨ c.isDigit = true) : isSpace c = false := by
  simp only [isSpace, Bool.or_eq_false_iff, decide_eq_false_iff_not]
  exact ⟨⟨⟨ne_of_numeral_head h (by decide) rfl, ne_of_numeral_head h (by decide) rfl⟩,
    ne_of_numeral_head h (by decide) rfl⟩, ne_of_numeral_head h (by decide) rfl⟩

theorem value_number {c : Char} (h : c = '-' ∨ c.isDigit = true) (fuel : Nat) (s : List Char) :
    value (fuel + 1) (c :: s) = number (c :: s) := by
  have hne : ∀ d : Char, d ≠ '-' → d.isDigit = false → c ≠ d := fun _ => ne_of_numeral_head h
  rw [value, skipSpace_cons (isSpace_of_numeral_head h)]
  simp only
  rw [if_neg (hne _ (by decide) rfl), if_neg (hne _ (by decide) rfl), if_neg (hne _ (by decide) rfl),
    if_neg (hne _ (by decide) rfl), if_neg (hne _ (by decide) rfl), if_neg (hne _ (by decide) rfl)]

/-! ## Documents -/

/-- A value is written with at least one character, so there is fuel to look at it. -/
theorem Spelled.of_head {v : Json} {c : Char} {t : List Char} (honto : ∀ rest, writeOnto rest v = write v ++ rest)
    (hhead : write v = c :: t) (hspace : isSpace c = false) (hclose : c ≠ ']')
    (hread : ∀ n rest, Stops rest → 2 * (write v).length ≤ n + 1 → value (n + 1) (write v ++ rest) = some (v, rest)) :
    Spelled v := by
  refine ⟨honto, ⟨c, t, hhead, hspace, hclose⟩, fun rest fuel hrest hfuel => ?_⟩
  have hpos : 0 < (write v).length := List.length_pos_iff.mpr (hhead ▸ List.cons_ne_nil c t)
  obtain ⟨n, rfl⟩ : ∃ n, fuel = n + 1 := ⟨fuel - 1, by omega⟩
  exact hread n rest hrest hfuel

theorem spelled_int (i : Int) : Spelled (.int i) := by
  have hwrite : write (.int i) = numeral i := List.append_nil _
  obtain ⟨c, t, ht⟩ := List.exists_cons_of_ne_nil (numeral_ne_nil i)
  have hc : c = '-' ∨ c.isDigit = true := mem_numeral (ht ▸ List.mem_cons_self)
  refine .of_head (fun rest => by rw [hwrite]; rfl) (hwrite.trans ht) (isSpace_of_numeral_head hc)
    (ne_of_numeral_head hc (by decide) rfl) fun n rest hrest _ => ?_
  rw [hwrite, ← number_numeral i hrest, ht, List.cons_append, value_number hc]

theorem spelled_text (s : String) : Spelled (.text (points s)) := by
  have hwrite : write (.text (points s)) = writeText (points s) := List.append_nil _
  refine .of_head (fun rest => by rw [hwrite]; rfl) hwrite rfl (by decide) fun n rest _ _ => ?_
  rw [hwrite, value_text]

theorem spelled_list {vs : List Json} (h : ∀ v ∈ vs, Spelled v) : Spelled (.list vs) := by
  cases vs with
  | nil => exact .of_head (fun _ => rfl) (c := '[') rfl rfl (by decide) fun _ _ _ _ => rfl
  | cons v vs =>
    obtain ⟨hv, hvs⟩ := List.forall_mem_cons.mp h
    have honto : ∀ rest, writeOnto rest (.list (v :: vs)) = '[' :: (write v ++ (itemsText vs ++ ']' :: rest)) := by
      intro rest
      rw [writeOnto, hv.onto, writeItems_eq hvs]
    have hwrite : write (.list (v :: vs)) = '[' :: (write v ++ (itemsText vs ++ [']'])) := honto []
    have happend : ∀ rest, write (.list (v :: vs)) ++ rest = '[' :: (write v ++ (itemsText vs ++ ']' :: rest)) := by
      intro rest
      simp [hwrite]
    refine .of_head (fun rest => (honto rest).trans (happend rest).symm) hwrite rfl (by decide) fun n rest _ hn => ?_
    have hitems : items n (write v ++ (itemsText vs ++ ']' :: rest)) = some (v :: vs, rest) := by
      apply items_write hv hvs
      simp only [hwrite, List.length_append, List.length_cons, List.length_nil] at hn ⊢
      omega
    obtain ⟨c, t, ht, hspace, hclose⟩ := hv.head
    have hread : value (n + 1) ('[' :: (write v ++ (itemsText vs ++ ']' :: rest))) =
        (items n (write v ++ (itemsText vs ++ ']' :: rest))).map fun (vs, s) => (.list vs, s) := by
      rw [ht, List.cons_append]
      exact value_list hspace hclose n _
    rw [happend, hread, hitems]
    rfl

theorem spelled_object {ms : List (Points × Json)} (hname : ∀ m ∈ ms, ∃ s, m.1 = points s)
    (hvalue : ∀ m ∈ ms, Spelled m.2) : Spelled (.object ms) := by
  cases ms with
  | nil => exact .of_head (fun _ => rfl) (c := '\x7b') rfl rfl (by decide) fun _ _ _ _ => rfl
  | cons m ms =>
    obtain ⟨hm, hms⟩ := List.forall_mem_cons.mp hvalue
    have honto : ∀ rest,
        writeOnto rest (.object (m :: ms)) = '\x7b' :: (memberText m ++ (membersText ms ++ '\x7d' :: rest)) := by
      intro rest
      rw [writeOnto, writeMember_eq hm, writeMembers_eq hms]
    have hwrite : write (.object (m :: ms)) = '\x7b' :: (memberText m ++ (membersText ms ++ ['\x7d'])) := honto []
    have happend : ∀ rest,
        write (.object (m :: ms)) ++ rest = '\x7b' :: (memberText m ++ (membersText ms ++ '\x7d' :: rest)) := by
      intro rest
      simp [hwrite]
    refine .of_head (fun rest => (honto rest).trans (happend rest).symm) hwrite rfl (by decide) fun n rest _ hn => ?_
    have hmembers : objectMembers n (memberText m ++ (membersText ms ++ '\x7d' :: rest)) = some (m :: ms, rest) := by
      apply objectMembers_write hname hvalue
      simp only [hwrite, List.length_append, List.length_cons, List.length_nil] at hn ⊢
      omega
    -- A member starts with the mark of its name.
    have hread : value (n + 1) ('\x7b' :: (memberText m ++ (membersText ms ++ '\x7d' :: rest))) =
        (objectMembers n (memberText m ++ (membersText ms ++ '\x7d' :: rest))).map fun (ms, s) => (.object ms, s) :=
      value_object (c := '"') rfl (by decide) n _
    rw [happend, hread, hmembers]
    rfl

theorem Exact.spelled {v : Json} (h : Exact v) : Spelled v := by
  induction h with
  | null => exact .of_head (fun _ => rfl) (c := 'n') rfl rfl (by decide) fun _ _ _ _ => rfl
  | bool b =>
    cases b with
    | true => exact .of_head (fun _ => rfl) (c := 't') rfl rfl (by decide) fun _ _ _ _ => rfl
    | false => exact .of_head (fun _ => rfl) (c := 'f') rfl rfl (by decide) fun _ _ _ _ => rfl
  | int i => exact spelled_int i
  | text s => exact spelled_text s
  | list _ ih => exact spelled_list ih
  | object hname _ ih => exact spelled_object hname ih

/-- **Documents are read back.** What is written for a value is read as that value, with any blanks behind it. -/
theorem read_write {v : Json} (h : Exact v) {blanks : List Char} (hblanks : ∀ c ∈ blanks, isSpace c = true) :
    read (write v ++ blanks) = some v := by
  have hstops : Stops blanks := fun c hc => Or.inr (Or.inr (Or.inr (hblanks c (List.mem_of_mem_head? hc))))
  have hrest : skipSpace blanks = [] := List.dropWhile_eq_nil_iff.mpr hblanks
  have hvalue := h.spelled.read blanks (2 * (write v ++ blanks).length + 2) hstops (by rw [List.length_append]; omega)
  rw [read, hvalue]
  exact if_pos hrest

end CoreBench.Json
