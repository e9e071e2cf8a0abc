import CoreBench.Text.Cut
import CoreBench.Text.Digits

/-!
Lexical elements of TOML documents. A document is cut into tokens from left to right; each token is the
longest that fits. What fits no token makes the document malformed.

Quoted texts come in four forms: basic ones between `"`, with escapes, and literal ones between `'`,
each on one line between single marks or on several between triple ones. The triple forms drop a newline
right after the opening marks, and up to two marks may stand ahead of the closing ones. A carriage return
ahead of a newline belongs to the newline, everywhere.
-/

namespace CoreBench.Toml

open CoreBench.Text

/-- A lexical element. `bare` is a run of letters, digits, `-` and `_`; `quoted` carries the text meant,
and whether it was written in a triple form. -/
inductive Token where
  | blank (s : List Char)
  | newline
  | comment
  | equals
  | period
  | comma
  | colon
  | plus
  | leftBrace
  | rightBrace
  | leftBracket
  | rightBracket
  | bare (s : List Char)
  | quoted (s : List Char) (triple : Bool)
  deriving DecidableEq, Repr

/-- The text with every pair of carriage return and newline made one newline. -/
def foldReturns : List Char → List Char
  | '\r' :: '\n' :: s => '\n' :: foldReturns s
  | c :: s => c :: foldReturns s
  | [] => []

/-- Blanks within a line. -/
def isSpace (c : Char) : Bool :=
  c = ' ' || c = '\t'

/-- The characters of a bare word. -/
def isBareChar (c : Char) : Bool :=
  c.isAlphanum || c = '-' || c = '_'

/-- The characters of a comment. -/
def isCommentChar (c : Char) : Bool :=
  c = '\t' || 0x20 ≤ c.toNat

/-- The characters that may stand for themselves in a quoted text. -/
def isTextChar (c : Char) : Bool :=
  c = '\t' || (0x20 ≤ c.toNat && c.toNat ≠ 0x7F)

/-! ## Quoted texts -/

/-- The character that a letter stands for behind a backslash. -/
def shortEscape? (c : Char) : Option Char :=
  if c = '"' then some '"'
  else if c = '\\' then some '\\'
  else if c = 'b' then some '\x08'
  else if c = 'f' then some '\x0c'
  else if c = 'n' then some '\n'
  else if c = 'r' then some '\r'
  else if c = 't' then some '\t'
  else none

/-- The character with the number that the digits spell, if there is one. -/
def hexChar? (ds : List Char) : Option Char :=
  (hexNumber? 0 ds).bind fun n =>
    if n.isValidChar then some (Char.ofNat n) else none

/-- Whether a text goes on, behind blanks, with a newline or not at all. -/
def endsLine (s : List Char) : Bool :=
  match s.dropWhile isSpace with
  | [] => true
  | c :: _ => c = '\n'

/-- What follows three closing marks: up to two more of them still belong to the text. -/
def closing (mark : Char) (acc : List Char) : List Char → List Char × List Char
  | [] => (acc.reverse, [])
  | x :: s =>
    if x = mark then
      match s with
      | [] => ((mark :: acc).reverse, [])
      | y :: t => if y = mark then ((mark :: mark :: acc).reverse, t) else ((mark :: acc).reverse, s)
    else (acc.reverse, x :: s)

/-- The text up to its closing marks, and what follows them. `acc` is the text so far, last character
first. Within `"`, a backslash starts an escape; in the triple form, one at the end of a line drops all
blanks and newlines up to the next character, which is what `trimming` is for. -/
def body (mark : Char) (triple trimming : Bool) (acc : List Char) :
    List Char → Option (List Char × List Char)
  | [] => none
  | c :: s =>
    if trimming && (isSpace c || c = '\n') then body mark triple true acc s
    else if c = mark then
      if triple then
        match after? [mark, mark] s with
        | some t => some (closing mark acc t)
        | none => body mark triple false (mark :: acc) s
      else some (acc.reverse, s)
    else if c = '\n' then
      if triple then body mark triple false ('\n' :: acc) s else none
    else if c = '\\' ∧ mark = '"' then
      match s with
      | [] => none
      | e :: t =>
        match shortEscape? e with
        | some d => body mark triple false (d :: acc) t
        | none =>
          if e = 'u' then
            match t with
            | x1 :: x2 :: x3 :: x4 :: rest =>
              match hexChar? [x1, x2, x3, x4] with
              | some d => body mark triple false (d :: acc) rest
              | none => none
            | _ => none
          else if e = 'U' then
            match t with
            | x1 :: x2 :: x3 :: x4 :: x5 :: x6 :: x7 :: x8 :: rest =>
              match hexChar? [x1, x2, x3, x4, x5, x6, x7, x8] with
              | some d => body mark triple false (d :: acc) rest
              | none => none
            | _ => none
          else if triple && (isSpace e || e = '\n') && endsLine (e :: t) then
            body mark triple true acc t
          else none
    else if isTextChar c then body mark triple false (c :: acc) s
    else none
termination_by structural s => s

/-- The text without a newline at its start. -/
def dropNewline : List Char → List Char
  | '\n' :: s => s
  | s => s

/-- A quoted text behind its first mark, and what follows it. -/
def quotedText (mark : Char) : List Char → Option (Token × List Char)
  | x :: y :: s =>
    if x = mark then
      if y = mark then
        (body mark true false [] (dropNewline s)).map fun (t, rest) => (.quoted t true, rest)
      else some (.quoted [] false, y :: s)
    else (body mark false false [] (x :: y :: s)).map fun (t, rest) => (.quoted t false, rest)
  | [x] => if x = mark then some (.quoted [] false, []) else none
  | [] => none

/-! ## Tokens -/

/-- The token that a single character makes. -/
def symbol? (c : Char) : Option Token :=
  if c = '\n' then some .newline
  else if c = '=' then some .equals
  else if c = '.' then some .period
  else if c = ',' then some .comma
  else if c = ':' then some .colon
  else if c = '+' then some .plus
  else if c = '\x7b' then some .leftBrace
  else if c = '\x7d' then some .rightBrace
  else if c = '[' then some .leftBracket
  else if c = ']' then some .rightBracket
  else none

/-- The first token of a text, and what follows it. -/
def Token.first? : List Char → Option (Token × List Char)
  | [] => none
  | c :: s =>
    match symbol? c with
    | some t => some (t, s)
    | none =>
      if isSpace c then some (.blank (c :: s.takeWhile isSpace), s.dropWhile isSpace)
      else if c = '#' then some (.comment, s.dropWhile isCommentChar)
      else if c = '\'' ∨ c = '"' then quotedText c s
      else if isBareChar c then some (.bare (c :: s.takeWhile isBareChar), s.dropWhile isBareChar)
      else none

/-- The tokens of a text; `fuel` bounds their number. -/
def Token.scanWith : Nat → List Char → Option (List Token)
  | _, [] => some []
  | 0, _ :: _ => none
  | fuel + 1, c :: s =>
    match first? (c :: s) with
    | none => none
    | some (t, rest) => (scanWith fuel rest).map (t :: ·)

/-- The text without a byte order mark at its start. -/
def dropMark : List Char → List Char
  | c :: s => if c.toNat = 0xFEFF then s else c :: s
  | [] => []

/-- The tokens of a document. -/
def Token.scan (s : List Char) : Option (List Token) :=
  let s := foldReturns (dropMark s)
  scanWith s.length s

end CoreBench.Toml
