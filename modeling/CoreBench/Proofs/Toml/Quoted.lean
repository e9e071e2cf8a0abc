import CoreBench.Proofs.Text.Cut
import CoreBench.Toml.Token
import CoreBench.Toml.Writer
import Mathlib.Tactic.SplitIfs

/-!
Quoted texts read back. Between marks, a text is spelled piece by piece: a piece is a character or an escape, does
not start with a mark, and is read as one character. Between triple marks up to two marks may also stand in a row.
Whatever is spelled that way is read as what it spells, and every form of writing spells the text it is given.

What is proved:
  * `body_of_spells`, `body_of_spells_single`: what spells a text is read as that text;
  * `spells_escaped`, `spells_self`: escapes spell a text, and so does the text itself where a form holds it;
  * `first?_write`: a text is read back from the form that it is written in.
-/

namespace CoreBench.Toml

open CoreBench.Text

/-! ## Steps of the reader -/

theorem body_single_mark (mark : Char) (acc x : List Char) :
    body mark false false acc (mark :: x) = some (acc.reverse, x) := by
  rw [body.eq_def]
  simp

theorem body_triple_mark {mark : Char} {x : List Char} (h : after? [mark, mark] x = none)
    (acc : List Char) : body mark true false acc (mark :: x) = body mark true false (mark :: acc) x := by
  rw [body.eq_def]
  simp [h]

theorem body_triple_close (mark : Char) (acc x : List Char) :
    body mark true false acc (mark :: mark :: mark :: x) = some (closing mark acc x) := by
  rw [body.eq_def]
  simp [after?]

/-- A character that needs no escape is taken as it is. -/
theorem body_char {mark : Char} {triple : Bool} {c : Char} (hmark : c ≠ mark)
    (hslash : c = '\\' → mark ≠ '"') (hline : c = '\n' → triple = true)
    (htext : c ≠ '\n' → isTextChar c = true) (acc x : List Char) :
    body mark triple false acc (c :: x) = body mark triple false (c :: acc) x := by
  rw [body.eq_def]
  by_cases hn : c = '\n'
  · subst hn
    simp [hmark, hline rfl]
  · simp only [Bool.false_and, Bool.false_eq_true, if_false, hmark, hn, htext hn, if_true]
    rw [if_neg fun h => hslash h.1 h.2]

/-- Up to two marks behind the closing ones belong to the text. -/
theorem closing_replicate {mark : Char} {j : Nat} (hj : j ≤ 2) {rest : List Char}
    (hrest : rest.head? ≠ some mark) (acc : List Char) :
    closing mark acc (List.replicate j mark ++ rest) = (acc.reverse ++ List.replicate j mark, rest) := by
  match j, rest with
  | 0, [] => simp [closing]
  | 0, x :: rest =>
    have hx : x ≠ mark := by simpa using hrest
    simp [closing, hx]
  | 1, [] => simp [closing]
  | 1, x :: rest =>
    have hx : x ≠ mark := by simpa using hrest
    simp [closing, hx]
  | 2, rest => simp [closing, List.replicate_succ]
  | _ + 3, _ => omega

/-! ## Spelling -/

/-- Whether a piece of text between marks is read as one character. -/
structure Means (mark : Char) (triple : Bool) (p : List Char) (c : Char) : Prop where
  head : ∃ d q, p = d :: q ∧ d ≠ mark
  read : ∀ acc x, body mark triple false acc (p ++ x) = body mark triple false (c :: acc) x

/-- Whether a text between marks is spelled by another: piece by piece, with no more than so many marks in a row
ahead of the first piece, and two ahead of the others if the marks are triple ones. -/
inductive Spells (mark : Char) (triple : Bool) : Nat → List Char → List Char → Prop
  | nil {k : Nat} : Spells mark triple k [] []
  | mark {k : Nat} {w s : List Char} :
      Spells mark triple k w s → Spells mark triple (k + 1) (mark :: w) (mark :: s)
  | piece {k : Nat} {p w s : List Char} {c : Char} : Means mark triple p c →
      Spells mark triple (if triple then 2 else 0) w s → Spells mark triple k (p ++ w) (c :: s)

variable {mark : Char}

/-- What spells a text between single marks is read as that text. -/
theorem body_of_spells_single {w s : List Char} (h : Spells mark false 0 w s) (acc rest : List Char) :
    body mark false false acc (w ++ mark :: rest) = some (acc.reverse ++ s, rest) := by
  -- Without marks in a row there are only pieces, each of which goes on with no marks allowed.
  generalize hk : 0 = k at h
  induction h generalizing acc with
  | nil => rw [List.nil_append, body_single_mark, List.append_nil]
  | mark => cases hk
  | piece hp _ ih =>
    rw [List.append_assoc, hp.read, ih _ rfl, List.reverse_cons, List.append_assoc]
    rfl

/-- Behind a mark in a text, either nothing but one more mark may come before the end, or the next two
characters are not both marks. -/
theorem marks_or_none {w s : List Char} (h : Spells mark true 1 w s) :
    (∃ j ≤ 1, w = List.replicate j mark ∧ s = List.replicate j mark) ∨
      ∀ x, after? [mark, mark] (w ++ x) = none := by
  have hpiece : ∀ {p : List Char} {c : Char}, Means mark true p c → ∀ x,
      after? [mark] (p ++ x) = none ∧ after? [mark, mark] (p ++ x) = none := by
    intro p c hp x
    obtain ⟨d, q, rfl, hd⟩ := hp.head
    exact ⟨after?_eq_none_of_head hd.symm _ _, after?_eq_none_of_head hd.symm _ _⟩
  cases h with
  | nil => exact Or.inl ⟨0, by omega, rfl, rfl⟩
  | mark h =>
    cases h with
    | nil => exact Or.inl ⟨1, by omega, rfl, rfl⟩
    | piece hp _ =>
      refine Or.inr fun x => ?_
      rw [List.cons_append, List.append_assoc, after?, if_pos rfl]
      exact (hpiece hp _).1
  | piece hp _ =>
    refine Or.inr fun x => ?_
    rw [List.append_assoc]
    exact (hpiece hp _).2

theorem Spells.mono {triple : Bool} {k l : Nat} {w s : List Char} (h : Spells mark triple k w s)
    (hkl : k ≤ l) : Spells mark triple l w s := by
  induction h generalizing l with
  | nil => exact .nil
  | mark _ ih =>
    obtain ⟨m, rfl⟩ : ∃ m, l = m + 1 := ⟨l - 1, by omega⟩
    exact .mark (ih (by omega))
  | piece hp hw _ => exact .piece hp hw

/-- What spells a text between triple marks is read as that text, if no mark follows the closing ones. -/
theorem body_of_spells {k : Nat} {w s rest : List Char} (h : Spells mark true k w s) (hk : k ≤ 2)
    (hrest : rest.head? ≠ some mark) (acc : List Char) :
    body mark true false acc (w ++ mark :: mark :: mark :: rest) = some (acc.reverse ++ s, rest) := by
  induction h generalizing acc with
  | nil =>
    rw [List.nil_append, body_triple_close]
    exact congrArg some (closing_replicate (j := 0) (by omega) hrest acc)
  | @mark k w s hw ih =>
    rcases marks_or_none (hw.mono (by omega)) with ⟨j, hj, rfl, rfl⟩ | hnone
    · -- Only marks are left, so the first three of them close the text.
      have hmarks : mark :: List.replicate j mark ++ mark :: mark :: mark :: rest =
          mark :: mark :: mark :: (List.replicate (j + 1) mark ++ rest) := by
        rcases Nat.le_one_iff_eq_zero_or_eq_one.mp hj with rfl | rfl <;> rfl
      rw [hmarks, body_triple_close, closing_replicate (by omega) hrest]
      rfl
    · rw [List.cons_append, body_triple_mark (hnone _), ih (by omega), List.reverse_cons,
        List.append_assoc]
      rfl
  | piece hp _ ih =>
    rw [List.append_assoc, hp.read, ih (Nat.le_refl 2), List.reverse_cons, List.append_assoc]
    rfl

/-! ## Escapes -/

/-- What is not a control may stand for itself. -/
theorem isTextChar_of_not_isControl {c : Char} (h : isControl c = false) (hn : c ≠ '\n') :
    isTextChar c = true := by
  simp only [isControl, Bool.or_eq_false_iff, Bool.and_eq_false_iff, decide_eq_false_iff_not] at h
  simp only [isTextChar, Bool.or_eq_true, Bool.and_eq_true, decide_eq_true_eq]
  by_cases ht : c = '\t'
  · exact Or.inl ht
  · refine Or.inr ⟨?_, h.2⟩
    rcases h.1 with (h | h) | h
    · omega
    · exact absurd ht h
    · exact absurd hn h

theorem means_char {triple : Bool} {c : Char} (hmark : c ≠ mark) (hslash : c = '\\' → mark ≠ '"')
    (hline : c = '\n' → triple = true) (hctl : isControl c = false) : Means mark triple [c] c where
  head := ⟨c, [], rfl, hmark⟩
  read := body_char hmark hslash hline (isTextChar_of_not_isControl hctl)

theorem isControl_lt {c : Char} (h : isControl c = true) : c.toNat < 128 := by
  simp only [isControl, Bool.or_eq_true, Bool.and_eq_true, decide_eq_true_eq] at h
  omega

theorem hexChar?_of_lt : ∀ n < 128,
    hexChar? ['0', '0', (Nat.digitChar (n / 16)).toUpper, (Nat.digitChar (n % 16)).toUpper] =
        some (Char.ofNat n) ∧
      onLine ['\\', 'u', '0', '0', (Nat.digitChar (n / 16)).toUpper,
        (Nat.digitChar (n % 16)).toUpper] = true := by
  -- The controls are few enough to be looked at one by one.
  decide

theorem body_number {triple : Bool} {x1 x2 x3 x4 d : Char} (h : hexChar? [x1, x2, x3, x4] = some d)
    (acc x : List Char) :
    body '"' triple false acc ('\\' :: 'u' :: x1 :: x2 :: x3 :: x4 :: x) =
      body '"' triple false (d :: acc) x := by
  rw [body.eq_def]
  simp [shortEscape?, h]

/-- An escape means the character that it is written for, and is made of printable characters. -/
theorem means_escape {triple : Bool} {c : Char} {p : List Char} (h : escape? triple c = some p) :
    Means '"' triple p c ∧ onLine p = true := by
  have hshort : ∀ {e : Char}, shortEscape? e = some c → Means '"' triple ['\\', e] c := fun he =>
    ⟨⟨_, _, rfl, by decide⟩, fun acc x => by
      rw [body.eq_def]
      simp [he]⟩
  unfold escape? at h
  split_ifs at h with hb ht hf hr hs hn htriple hctl <;> cases h
  · exact ⟨hshort (by rw [hb]; rfl), rfl⟩
  · exact ⟨hshort (by rw [ht]; rfl), rfl⟩
  · exact ⟨hshort (by rw [hf]; rfl), rfl⟩
  · exact ⟨hshort (by rw [hr]; rfl), rfl⟩
  · exact ⟨hshort (by rw [hs]; rfl), rfl⟩
  · exact ⟨hshort (by rw [hn]; rfl), rfl⟩
  · obtain ⟨hhex, hline⟩ := hexChar?_of_lt c.toNat (isControl_lt hctl)
    rw [Char.ofNat_toNat] at hhex
    exact ⟨⟨⟨_, _, rfl, by decide⟩, body_number hhex⟩, hline⟩

/-- A character that needs no escape means itself. -/
theorem means_unescaped {triple : Bool} {c : Char} (hmark : c ≠ '"') (h : escape? triple c = none) :
    Means '"' triple [c] c ∧ isControl c = false := by
  unfold escape? at h
  split_ifs at h with hb ht hf hr hs hn htriple hctl
  · have hctl : isControl c = false := by
      rw [hn]
      rfl
    exact ⟨means_char hmark (fun hslash => absurd hslash hs) (fun _ => htriple) hctl, hctl⟩
  · have hctl : isControl c = false := Bool.eq_false_iff.mpr hctl
    exact ⟨means_char hmark (fun hslash => absurd hslash hs) (fun hline => absurd hline hn) hctl, hctl⟩

theorem means_escaped_mark (triple : Bool) : Means '"' triple ['\\', '"'] '"' where
  head := ⟨_, _, rfl, by decide⟩
  read acc x := by
    rw [body.eq_def]
    rfl

/-- **Escapes spell a text**, behind a number of marks in a row that were left as they are. -/
theorem spells_escaped (triple : Bool) {run : Nat} (hrun : run ≤ 2) (s : List Char) :
    Spells '"' triple (if triple then 2 - run else 0) (escaped triple run s) s := by
  -- The run is left open: it grows by a mark that is left as it is, and ends with any other piece.
  induction s generalizing run with
  | nil => exact .nil
  | cons c s ih =>
    have hnext : Spells '"' triple (if triple then 2 else 0) (escaped triple 0 s) s :=
      ih (Nat.zero_le 2)
    rw [escaped]
    by_cases hc : c = '"'
    · subst hc
      rw [if_pos rfl]
      cases triple with
      | false => exact .piece (means_escaped_mark false) hnext
      | true =>
        by_cases hlt : run < 2
        · have hk : 2 - run = 2 - (run + 1) + 1 := by omega
          simp only [hlt, decide_true, Bool.and_self, if_true, hk]
          exact .mark (ih (by omega))
        · simp only [hlt, decide_false, Bool.and_false, Bool.false_eq_true, if_false]
          exact .piece (means_escaped_mark true) hnext
    · rw [if_neg hc]
      cases he : escape? triple c with
      | none => exact .piece (means_unescaped hc he).1 hnext
      | some p => exact .piece (means_escape he).1 hnext

/-! ## Texts as they are -/

/-- On one line, a text without controls and marks spells itself. -/
theorem spells_self_single (hmark : mark ≠ '"') {s : List Char} (honLine : onLine s = true)
    (hs : mark ∉ s) : Spells mark false 0 s s := by
  induction s with
  | nil => exact .nil
  | cons c s ih =>
    simp only [onLine, List.all_cons, Bool.and_eq_true, Bool.not_eq_true', decide_eq_true_eq] at honLine
    obtain ⟨⟨hctl, hn⟩, hall⟩ := honLine
    have hc : c ≠ mark := fun h => hs (h ▸ List.mem_cons_self)
    have hs : mark ∉ s := fun h => hs (List.mem_cons_of_mem c h)
    exact .piece (means_char hc (fun _ => hmark) (fun h => absurd h hn) hctl) (ih hall hs)

/-- A text without controls and without three marks in a row spells itself. -/
theorem spells_self (hmark : mark ≠ '"') {k : Nat} (hk : k ≤ 2) {s : List Char}
    (hctl : ∀ c ∈ s, isControl c = false)
    (hrow : ¬ [mark, mark, mark] <:+: List.replicate (2 - k) mark ++ s) :
    Spells mark true k s s := by
  -- The marks that may no longer come are kept ahead of the text, so that a third one in a row shows.
  induction s generalizing k with
  | nil => exact .nil
  | cons c s ih =>
    have hrest : ∀ d ∈ s, isControl d = false := fun d hd => hctl d (List.mem_cons_of_mem c hd)
    by_cases hc : c = mark
    · subst hc
      match k with
      | 0 => exact absurd ⟨[], s, rfl⟩ hrow
      | k + 1 =>
        refine .mark (ih (by omega) hrest ?_)
        have hrep : List.replicate (2 - k) c ++ s = List.replicate (2 - (k + 1)) c ++ c :: s := by
          rw [show 2 - k = 2 - (k + 1) + 1 by omega, List.replicate_succ', List.append_assoc]
          rfl
        rwa [hrep]
    · have hnext : ¬ [mark, mark, mark] <:+: s := fun h =>
        hrow (h.trans ((List.suffix_cons c s).trans (List.suffix_append _ _)).isInfix)
      exact .piece (means_char hc (fun _ => hmark) (fun _ => rfl) (hctl c List.mem_cons_self))
        (ih (Nat.le_refl 2) hrest hnext)

/-! ## Characters of what is written -/

/-- Nothing that is written with escapes is a control, and each newline is one of the text. -/
theorem mem_escaped {triple : Bool} {x : Char} {run : Nat} {s : List Char}
    (h : x ∈ escaped triple run s) : isControl x = false ∧ (x = '\n' → x ∈ s) := by
  induction s generalizing run with
  | nil => exact absurd h List.not_mem_nil
  | cons c s ih =>
    have htail : ∀ {r : Nat}, x ∈ escaped triple r s → isControl x = false ∧ (x = '\n' → x ∈ c :: s) :=
      fun h => ⟨(ih h).1, fun hn => List.mem_cons_of_mem c ((ih h).2 hn)⟩
    have hmem : ∀ {w : List Char}, onLine w = true → x ∈ w →
        isControl x = false ∧ (x = '\n' → x ∈ c :: s) := by
      intro w hw hx
      have := List.all_eq_true.mp hw x hx
      simp only [Bool.and_eq_true, Bool.not_eq_true', decide_eq_true_eq] at this
      exact ⟨this.1, fun hn => absurd hn this.2⟩
    rw [escaped] at h
    -- A mark is left as it is or escaped; any other character stands for itself or has an escape.
    split at h
    · split at h
      · rcases List.mem_append.mp (show x ∈ ['"'] ++ _ from h) with h | h
        · exact hmem rfl h
        · exact htail h
      · rcases List.mem_append.mp (show x ∈ ['\\', '"'] ++ _ from h) with h | h
        · exact hmem rfl h
        · exact htail h
    · next hc =>
      rcases List.mem_append.mp h with h | h
      · cases he : escape? triple c with
        | none =>
          rw [he] at h
          obtain rfl := List.mem_singleton.mp h
          exact ⟨(means_unescaped hc he).2, fun _ => List.mem_cons_self⟩
        | some p =>
          rw [he] at h
          exact hmem (means_escape he).2 h
      · exact htail h

/-! ## Forms -/

/-- The form of a text holds it, unless it is one with escapes. -/
theorem ofText_holds {s : List Char} {f : Form} (h : Form.ofText s = f) :
    f.holds s = true ∨ f = .basic ∨ f = .triple := by
  unfold Form.ofText at h
  cases hf : ([.basic, .literal, .triple, .tripleLiteral] : List Form).find? (·.holds s) with
  | some g =>
    rw [hf] at h
    obtain rfl : g = f := h
    exact Or.inl (List.find?_some hf)
  | none =>
    rw [hf, Option.getD_none] at h
    split at h
    · exact Or.inr (Or.inr h.symm)
    · exact Or.inr (Or.inl h.symm)

theorem holds_literal {s : List Char} (h : Form.ofText s = .literal) :
    onLine s = true ∧ '\'' ∉ s := by
  rcases ofText_holds h with h | h | h
  · simp only [Form.holds, Bool.and_eq_true, Bool.not_eq_true'] at h
    exact ⟨h.1, fun hmem => Bool.eq_false_iff.mp h.2 (List.contains_iff_mem.mpr hmem)⟩
  · cases h
  · cases h

theorem holds_tripleLiteral {s : List Char} (h : Form.ofText s = .tripleLiteral) :
    (∀ c ∈ s, isControl c = false) ∧ ¬ ['\'', '\'', '\''] <:+: s := by
  rcases ofText_holds h with h | h | h
  · simp only [Form.holds, Bool.and_eq_true, Bool.not_eq_true', List.all_eq_true] at h
    exact ⟨h.1, fun hrow => Bool.eq_false_iff.mp h.2 (occursIn_iff.mpr hrow)⟩
  · cases h
  · cases h

/-- What is written between triple marks starts with a newline only if the text has one, and then there is one
ahead of it to be dropped. -/
theorem dropNewline_opening {s w : List Char} {mark : Char} (hmark : mark ≠ '\n')
    (h : '\n' ∈ w → '\n' ∈ s) (x : List Char) :
    dropNewline (opening s ++ (w ++ mark :: x)) = w ++ mark :: x := by
  unfold opening
  split
  · rfl
  · next hs =>
    have hkeep : ∀ {c : Char} {t : List Char}, c ≠ '\n' → dropNewline (c :: t) = c :: t := by
      intro c t hc
      unfold dropNewline
      split
      · next heq => exact absurd (List.cons.inj heq).1 hc
      · rfl
    cases w with
    | nil => exact hkeep hmark
    | cons c w =>
      refine hkeep fun hc => hs (List.contains_iff_mem.mpr (h ?_))
      rw [hc]
      exact List.mem_cons_self

theorem quotedText_single {mark : Char} {w s rest : List Char} (h : Spells mark false 0 w s)
    (hrest : rest.head? ≠ some mark) :
    quotedText mark (w ++ mark :: rest) = some (.quoted s false, rest) := by
  have hbody := body_of_spells_single h [] rest
  cases h with
  | nil =>
    -- The two marks of an empty text would open triple marks if one more came behind them.
    cases rest with
    | nil => simp [quotedText]
    | cons x rest =>
      have hx : x ≠ mark := by simpa using hrest
      simp [quotedText, hx]
  | piece hp _ =>
    obtain ⟨d, q, rfl, hd⟩ := hp.head
    simp only [List.cons_append, List.append_assoc] at hbody ⊢
    obtain ⟨y, t, hy⟩ := List.exists_cons_of_ne_nil (l := q ++ (_ ++ mark :: rest)) (by simp)
    rw [hy] at hbody ⊢
    rw [quotedText, if_neg hd, hbody]
    rfl

theorem quotedText_triple {mark : Char} {k : Nat} {o w s rest : List Char}
    (h : Spells mark true k w s) (hk : k ≤ 2) (hrest : rest.head? ≠ some mark)
    (hdrop : dropNewline (o ++ (w ++ mark :: mark :: mark :: rest)) = w ++ mark :: mark :: mark :: rest) :
    quotedText mark (mark :: mark :: (o ++ (w ++ mark :: mark :: mark :: rest))) =
      some (.quoted s true, rest) := by
  rw [quotedText, if_pos rfl, if_pos rfl, hdrop, body_of_spells h hk hrest]
  rfl

/-- Whether a form is written between triple marks. -/
def Form.isTriple : Form → Bool
  | .basic => false
  | .literal => false
  | .triple => true
  | .tripleLiteral => true

theorem first?_mark {mark : Char} (h : mark = '\'' ∨ mark = '"') (s : List Char) :
    Token.first? (mark :: s) = quotedText mark s := by
  rcases h with rfl | rfl <;> rfl

/-- **A quoted text is read back.** What a text is written as, in its form, is one token, behind which comes the
end of the line. -/
theorem first?_write (s rest : List Char) :
    Token.first? ((Form.ofText s).write s ++ '\n' :: rest) =
      some (.quoted s (Form.ofText s).isTriple, '\n' :: rest) := by
  have hend : ∀ {m : Char}, m ≠ '\n' → ('\n' :: rest).head? ≠ some m := fun hm h =>
    hm (Option.some.inj h).symm
  cases hf : Form.ofText s with
  | basic =>
    have hw : Form.basic.write s ++ '\n' :: rest =
        '"' :: (escaped false 0 s ++ '"' :: '\n' :: rest) := by
      simp [Form.write]
    rw [hw, first?_mark (Or.inr rfl)]
    exact quotedText_single (spells_escaped false (Nat.zero_le 2) s) (hend (by decide))
  | literal =>
    obtain ⟨hline, hmark⟩ := holds_literal hf
    have hw : Form.literal.write s ++ '\n' :: rest = '\'' :: (s ++ '\'' :: '\n' :: rest) := by
      simp [Form.write]
    rw [hw, first?_mark (Or.inl rfl)]
    exact quotedText_single (spells_self_single (by decide) hline hmark) (hend (by decide))
  | triple =>
    have hw : Form.triple.write s ++ '\n' :: rest =
        '"' :: '"' :: '"' :: (opening s ++ (escaped true 0 s ++ '"' :: '"' :: '"' :: '\n' :: rest)) := by
      simp [Form.write]
    rw [hw, first?_mark (Or.inr rfl)]
    exact quotedText_triple (spells_escaped true (Nat.zero_le 2) s) (Nat.le_refl 2)
      (hend (by decide)) (dropNewline_opening (by decide) (fun h => (mem_escaped h).2 rfl) _)
  | tripleLiteral =>
    obtain ⟨hctl, hrow⟩ := holds_tripleLiteral hf
    have hw : Form.tripleLiteral.write s ++ '\n' :: rest =
        '\'' :: '\'' :: '\'' :: (opening s ++ (s ++ '\'' :: '\'' :: '\'' :: '\n' :: rest)) := by
      simp [Form.write]
    rw [hw, first?_mark (Or.inl rfl)]
    exact quotedText_triple (spells_self (by decide) (Nat.le_refl 2) hctl hrow) (Nat.le_refl 2)
      (hend (by decide)) (dropNewline_opening (by decide) (fun h => h) _)

theorem isControl_of_mem_marks {m c : Char} (hm : isControl m = false) (h : c ∈ [m, m, m]) :
    isControl c = false := by
  rw [List.eq_of_mem_replicate (n := 3) h]
  exact hm

theorem isControl_of_mem_opening {s : List Char} {c : Char} (h : c ∈ opening s) :
    isControl c = false := by
  unfold opening at h
  split at h
  · rw [List.mem_singleton.mp h]
    rfl
  · exact absurd h List.not_mem_nil

/-- What is written has no controls, so no carriage return either. -/
theorem isControl_of_mem_write {s : List Char} {c : Char} (h : c ∈ (Form.ofText s).write s) :
    isControl c = false := by
  cases hf : Form.ofText s with
  | basic =>
    rw [hf, Form.write, List.cons_append, List.mem_cons, List.mem_append, List.mem_singleton] at h
    rcases h with rfl | h | rfl
    · rfl
    · exact (mem_escaped h).1
    · rfl
  | literal =>
    rw [hf, Form.write, List.cons_append, List.mem_cons, List.mem_append, List.mem_singleton] at h
    rcases h with rfl | h | rfl
    · rfl
    · have hc := List.all_eq_true.mp (holds_literal hf).1 c h
      rw [Bool.and_eq_true, Bool.not_eq_true'] at hc
      exact hc.1
    · rfl
  | triple =>
    rw [hf, Form.write, List.mem_append, List.mem_append, List.mem_append] at h
    rcases h with ((h | h) | h) | h
    · exact isControl_of_mem_marks rfl h
    · exact isControl_of_mem_opening h
    · exact (mem_escaped h).1
    · exact isControl_of_mem_marks rfl h
  | tripleLiteral =>
    rw [hf, Form.write, List.mem_append, List.mem_append, List.mem_append] at h
    rcases h with ((h | h) | h) | h
    · exact isControl_of_mem_marks rfl h
    · exact isControl_of_mem_opening h
    · exact (holds_tripleLiteral hf).1 c h
    · exact isControl_of_mem_marks rfl h

end CoreBench.Toml
