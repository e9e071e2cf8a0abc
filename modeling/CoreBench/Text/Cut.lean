/-!
Texts as sequences of characters or of octets: the octets of a text, blanks, and what a sequence is cut into.
What follows a given start, what precedes a given end, the two sides of the first occurrence and the pieces
between separators are total functions on lists, so they serve characters and octets alike.

Stated here:
  * `after?_eq_some`: what `after?` returns is the rest of the sequence behind the given start;
  * `before?_eq_some`: what `before?` returns is the part of the sequence ahead of the given end;
  * `pieces_ne_nil`: there is always at least one piece.
-/

namespace CoreBench.Text

/-! ## Octets -/

/-- A sequence of octets. -/
abbrev Octets := List UInt8

/-- The UTF-8 form of a text. -/
def octets (s : String) : Octets :=
  s.toUTF8.toList

/-- The text whose UTF-8 form is given. -/
def ofOctets? (b : Octets) : Option String :=
  String.fromUTF8? ⟨b.toArray⟩

/-! ## Blanks -/

/-- The code points with the property White_Space. -/
def isBlank (c : Char) : Bool :=
  let n := c.toNat
  (9 ≤ n && n ≤ 13) || n == 0x20 || n == 0x85 || n == 0xA0 || n == 0x1680
    || (0x2000 ≤ n && n ≤ 0x200A) || n == 0x2028 || n == 0x2029 || n == 0x202F || n == 0x205F
    || n == 0x3000

/-- A text without the blanks at its two ends. -/
def trim (s : List Char) : List Char :=
  ((s.dropWhile isBlank).reverse.dropWhile isBlank).reverse

/-- Whether a text has blanks only. -/
def allBlank (s : List Char) : Bool :=
  s.all isBlank

/-! ## Cuts -/

section Cutting

variable {α : Type} [DecidableEq α]

/-- What follows `p` in a sequence that starts with `p`. -/
def after? : List α → List α → Option (List α)
  | [], s => some s
  | _ :: _, [] => none
  | x :: p, y :: s => if x = y then after? p s else none

theorem after?_eq_some {p s t : List α} : after? p s = some t ↔ s = p ++ t := by
  induction p generalizing s with
  | nil => simp [after?]
  | cons x p ih =>
    cases s with
    | nil => simp [after?]
    | cons y s =>
      by_cases h : x = y
      · simp [after?, h, ih]
      · simp [after?, h, Ne.symm h]

/-- What precedes `q` in a sequence that ends with `q`. -/
def before? (q s : List α) : Option (List α) :=
  (after? q.reverse s.reverse).map List.reverse

theorem before?_eq_some {q s t : List α} : before? q s = some t ↔ s = t ++ q := by
  constructor
  · intro h
    obtain ⟨u, hu, rfl⟩ := Option.map_eq_some_iff.mp h
    have := congrArg List.reverse (after?_eq_some.mp hu)
    simpa using this
  · rintro rfl
    exact Option.map_eq_some_iff.mpr ⟨t.reverse, after?_eq_some.mpr (by simp), by simp⟩

/-- The search for `sep`, where `passed` holds, last first, what was passed without finding it. -/
def cutFrom (sep : List α) (passed : List α) : List α → Option (List α × List α)
  | [] => if sep = [] then some (passed.reverse, []) else none
  | c :: s =>
    match after? sep (c :: s) with
    | some rest => some (passed.reverse, rest)
    | none => cutFrom sep (c :: passed) s

/-- The two sides of the first occurrence of `sep`. -/
def cut? (sep s : List α) : Option (List α × List α) :=
  cutFrom sep [] s

/-- Whether `needle` occurs in the sequence without gaps. -/
def occursIn (needle s : List α) : Bool :=
  (cut? needle s).isSome

/-- The pieces between the places where `sep` stands: one more than there are places. -/
def pieces (sep : α) (s : List α) : List (List α) :=
  s.foldr (fun c ps =>
    if c = sep then [] :: ps
    else match ps with
      | [] => [[c]]
      | p :: rest => (c :: p) :: rest) [[]]

theorem pieces_ne_nil (sep : α) (s : List α) : pieces sep s ≠ [] := by
  cases s with
  | nil => simp [pieces]
  | cons c s =>
    simp only [pieces, List.foldr_cons]
    split
    · simp
    · split <;> simp

end Cutting

/-- A line without the carriage return that belongs to its ending. -/
def dropReturn (l : List Char) : List Char :=
  (before? ['\r'] l).getD l

/-- The lines of a text: cut after each newline, without their endings, and without an empty last one. -/
def lines (s : List Char) : List (List Char) :=
  let ps := pieces '\n' s
  let last := ps.getLastD []
  ps.dropLast.map dropReturn ++ if last = [] then [] else [last]

end CoreBench.Text
