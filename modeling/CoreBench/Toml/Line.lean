import CoreBench.Toml.Number

/-!
The lines of TOML documents: headers of tables and settings. A setting gives a value to a key of one or
more names with points between them. Values are plain, or lists, or tables written on one line.

The key of a setting may lead through tables that only such keys have made, and through no others, so a
node remembers how its table was written.
-/

namespace CoreBench.Toml

open CoreBench.Settings CoreBench.Text

/-- A value as it was written: plain, a list, a table between braces, or a table made by a key with
points. -/
inductive Node where
  | plain (v : Value)
  | list (items : List Node)
  | braced (pairs : List (String × Node))
  | dotted (pairs : List (String × Node))

/-- Named nodes, in the order in which they were written. -/
abbrev Pairs := List (String × Node)

/-- The pairs with one more, whose key leads through the tables that keys with points have made. -/
def Pairs.add : List String → Node → Pairs → Option Pairs
  | [], _, _ => none
  | [k], v, ps => some (ps ++ [(k, v)])
  | k :: ks, v, ps =>
    match ps.span (fun p => p.1 ≠ k) with
    | (_, []) => (Pairs.add ks v []).map fun sub => ps ++ [(k, .dotted sub)]
    | (before, (_, .dotted sub) :: behind) =>
      (Pairs.add ks v sub).map fun sub => before ++ (k, .dotted sub) :: behind
    | _ => none

/-- A line with something on it: the header of a table, or of one more table of a list; or a setting. -/
inductive Line where
  | header (path : List String) (listed : Bool)
  | setting (path : List String) (value : Node)

/-- The tokens without a blank at the start. -/
def skipBlank : List Token → List Token
  | .blank _ :: ts => ts
  | ts => ts

/-- Whether a token has no meaning between lines. -/
def isFiller : Token → Bool
  | .blank _ => true
  | .newline => true
  | .comment => true
  | _ => false

/-- The tokens from the first one that has a meaning. -/
def skipFiller (ts : List Token) : List Token :=
  ts.dropWhile isFiller

/-- What follows the end of a line, ahead of which a blank and a comment may stand. -/
def lineEnd (ts : List Token) : Option (List Token) :=
  match skipBlank ts with
  | [] => some []
  | .newline :: ts => some ts
  | .comment :: .newline :: ts => some ts
  | [.comment] => some []
  | _ => none

/-- A name: a bare word, or a quoted text on one line. -/
def name : List Token → Option (String × List Token)
  | .bare s :: ts => some (String.ofList s, ts)
  | .quoted s false :: ts => some (String.ofList s, ts)
  | _ => none

/-- The names behind the points that follow, blanks being allowed around them; `fuel` bounds their
number. -/
def moreNames : Nat → List Token → Option (List String × List Token)
  | 0, ts => some ([], skipBlank ts)
  | fuel + 1, ts =>
    match skipBlank ts with
    | .period :: ts => do
      let (k, ts) ← name (skipBlank ts)
      let (ks, ts) ← moreNames fuel ts
      some (k :: ks, ts)
    | ts => some ([], ts)

/-- A key, and what follows it and the blanks behind it. -/
def key (ts : List Token) : Option (List String × List Token) := do
  let (k, ts) ← name ts
  let (ks, ts) ← moreNames ts.length ts
  some (k :: ks, ts)

/-- A given token at the start, and what follows it. -/
def expect (t : Token) : List Token → Option (List Token)
  | [] => none
  | u :: ts => if u = t then some ts else none

mutual

/-- A value; `fuel` bounds the number of values and pairs within it. -/
def value : Nat → List Token → Option (Node × List Token)
  | 0, _ => none
  | _, [] => none
  | fuel + 1, t :: ts =>
    match t with
    | .quoted s _ => some (.plain (.text (String.ofList s)), ts)
    | .bare s =>
      if s = "true".toList then some (.plain (.bool true), ts)
      else if s = "false".toList then some (.plain (.bool false), ts)
      else if s = "inf".toList ∨ s = "nan".toList ∨ (s.head?.any fun c => c = '-' ∨ c.isDigit) then
        (numberOrDate s ts).map fun (v, ts) => (.plain v, ts)
      else none
    | .plus =>
      match ts with
      | .bare s :: ts => (number s ts).map fun (v, ts) => (.plain v, ts)
      | _ => none
    | .leftBrace =>
      match skipBlank ts with
      | .rightBrace :: ts => some (.braced [], ts)
      | ts => (braced fuel [] ts).map fun (ps, ts) => (.braced ps, ts)
    | .leftBracket => (items fuel ts).map fun (vs, ts) => (.list vs, ts)
    | _ => none

/-- The items of a list up to its closing bracket; they may be spread over lines. -/
def items : Nat → List Token → Option (List Node × List Token)
  | 0, _ => none
  | fuel + 1, ts =>
    match skipFiller ts with
    | .rightBracket :: ts => some ([], ts)
    | ts => do
      let (v, ts) ← value fuel ts
      match skipFiller ts with
      | .comma :: ts =>
        let (vs, ts) ← items fuel ts
        some (v :: vs, ts)
      | .rightBracket :: ts => some ([v], ts)
      | _ => none

/-- The pairs of a table behind those in `ps`, up to its closing brace. -/
def braced : Nat → Pairs → List Token → Option (Pairs × List Token)
  | 0, _, _ => none
  | fuel + 1, ps, ts => do
    let (k, ts) ← key ts
    let ts ← expect .equals (skipBlank ts)
    let (v, ts) ← value fuel (skipBlank ts)
    let ps ← ps.add k v
    match skipBlank ts with
    | .rightBrace :: ts => some (ps, ts)
    | .comma :: ts => braced fuel ps (skipBlank ts)
    | _ => none

end

/-- A header behind its first bracket. -/
def header (ts : List Token) : Option (Line × List Token) := do
  let (listed, ts) := match ts with
    | .leftBracket :: ts => (true, ts)
    | ts => (false, ts)
  let (path, ts) ← key (skipBlank ts)
  let ts ← expect .rightBracket ts
  let ts ← if listed then expect .rightBracket ts else some ts
  let ts ← lineEnd ts
  some (.header path listed, ts)

/-- A setting. -/
def setting (ts : List Token) : Option (Line × List Token) := do
  let (path, ts) ← key ts
  let ts ← expect .equals ts
  let (v, ts) ← value ts.length (skipBlank ts)
  let ts ← lineEnd ts
  some (.setting path v, ts)

/-- The lines of a document; `fuel` bounds their number. -/
def linesWith : Nat → List Token → Option (List Line)
  | fuel, ts =>
    match skipFiller ts with
    | [] => some []
    | t :: ts =>
      match fuel with
      | 0 => none
      | fuel + 1 => do
        let (line, ts) ← if t = .leftBracket then header ts else setting (t :: ts)
        let lines ← linesWith fuel ts
        some (line :: lines)

/-- The lines of a document that have something on them. -/
def lines (ts : List Token) : Option (List Line) :=
  linesWith ts.length ts

end CoreBench.Toml
