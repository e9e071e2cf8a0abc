import CoreBench.Toml.Line

/-!
TOML documents: the table that the lines of a document describe.

A header starts a section, whose settings belong to the table that the header's path leads to. A table may
have a section once, before or after the sections of the tables in it. If the first section at a path is
that of a list, each further section of the list there starts another table, and the sections behind it
belong to that table. No table has two entries of one name.
-/

namespace CoreBench.Toml

open CoreBench.Settings

/-- The settings under a header. `path` leads to their table from the one that is being read. -/
structure Section where
  path : List String
  listed : Bool
  pairs : Pairs

/-- The settings ahead of all headers, and the sections. -/
structure Sections where
  root : Pairs
  sections : List Section

/-- The lines collected by their headers, behind the section in `current`, or at the start. -/
def collect : Option Section → Pairs → List Line → Option Sections
  | none, root, [] => some ⟨root, []⟩
  | some s, root, [] => some ⟨root, [s]⟩
  | none, root, .setting k v :: ls => do
    let root ← root.add k v
    collect none root ls
  | some s, root, .setting k v :: ls => do
    let pairs ← s.pairs.add k v
    collect (some { s with pairs }) root ls
  | none, root, .header path listed :: ls => collect (some ⟨path, listed, []⟩) root ls
  | some s, root, .header path listed :: ls => do
    let r ← collect (some ⟨path, listed, []⟩) root ls
    some { r with sections := s :: r.sections }

mutual

/-- The value of a node, if no table in it has two entries of one name. -/
def Node.value? : Node → Option Value
  | .plain v => some v
  | .list vs => (itemValues? vs).map .list
  | .braced ps => (entries? ps).map .table
  | .dotted ps => (entries? ps).map .table
termination_by structural n => n

/-- The values of the items of a list. -/
def itemValues? : List Node → Option (List Value)
  | [] => some []
  | n :: ns => do
    let v ← n.value?
    let vs ← itemValues? ns
    some (v :: vs)
termination_by structural ns => ns

/-- The values of named nodes, if no name occurs twice. -/
def entries? : List (String × Node) → Option Entries
  | [] => some []
  | (k, n) :: ps => do
    let v ← n.value?
    let es ← entries? ps
    if (es.lookup k).isSome then none else some ((k, v) :: es)
termination_by structural ps => ps

end

/-- The names that the sections go through first, each once, in order. -/
def heads : List Section → List String
  | [] => []
  | s :: ss =>
    match s.path with
    | [] => heads ss
    | k :: _ => k :: (heads ss).filter (· ≠ k)

/-- The sections that go through a name first, as seen from its table. -/
def through (k : String) (ss : List Section) : List Section :=
  ss.filterMap fun s =>
    match s.path with
    | [] => none
    | n :: path => if n = k then some { s with path } else none

/-- Whether a section starts a table of the list at hand. -/
def Section.startsItem (s : Section) : Bool :=
  s.path.isEmpty && s.listed

/-- The sections cut ahead of each one that starts a table of the list at hand: those ahead of the first
such one, and then each such one with those behind it. -/
def cutItems (ss : List Section) : List Section × List (Section × List Section) :=
  ss.foldr (fun s (opened, groups) =>
    if s.startsItem then ([], (s, opened) :: groups) else (s :: opened, groups)) ([], [])

/-- The settings of a table that is not in a list: those of its one section, or none. -/
def ownPairs? (ss : List Section) : Option Pairs :=
  match ss.filter fun s => s.path.isEmpty with
  | [] => some []
  | [s] => if s.listed then none else some s.pairs
  | _ => none

/-- The entries of a table with the given settings and the tables that the sections lead to; `fuel` bounds
the length of their paths. -/
def tableOf : Nat → Pairs → List Section → Option Entries
  | 0, _, _ => none
  | fuel + 1, pairs, ss => do
    let own ← entries? pairs
    let inner ← (heads ss).mapM fun k =>
      if (own.lookup k).isSome then none
      else
        let group := through k ss
        match cutItems group with
        | ([], items) =>
          if items.any fun i => i.2.any fun s => s.path.isEmpty then none
          else
            (items.mapM fun i => (tableOf fuel i.1.pairs i.2).map Value.table).map fun vs =>
              (k, Value.list vs)
        | _ => (ownPairs? group).bind fun ps => (tableOf fuel ps group).map fun es => (k, .table es)
    some (own ++ inner)

/-- The settings that a document gives, in order. -/
def read (s : List Char) : Option Entries := do
  let ts ← Token.scan s
  let ls ← lines ts
  let doc ← collect none [] ls
  let depth := doc.sections.foldl (fun n s => max n s.path.length) 0
  tableOf (depth + 1) doc.root doc.sections

end CoreBench.Toml
