import CoreBench.Files.Stream
import CoreBench.Text.Cut

/-!
A tree of files, and the walk from a path to a place in it.

A path is cut at its slashes into names. The walk starts at the root for a path that starts with a slash
and at the working directory for any other; `.` stays, `..` goes to the parent, and every other name is
looked up in the directory reached so far. A slash at the end asks for a directory, as a last `.` does.

Stated here:
  * `node?_put`, `node?_put_of_ne`: writing at one place shows there and nowhere else.
-/

namespace CoreBench.Files

open CoreBench.Text

/-- A place in the tree: the names on the way to it from the root. -/
abbrev Place := List String

/-- What stands at a place. `null` takes all that is written and gives nothing; `full` takes nothing. -/
inductive Node where
  | file (content : Octets)
  | directory
  | null
  | full
  deriving DecidableEq, Repr

/-- A tree of files with a working directory. The root is always there. -/
structure Tree where
  nodes : List (Place × Node)
  home : Place
  deriving Repr

namespace Tree

/-- What stands at a place. -/
def node? (t : Tree) (p : Place) : Option Node :=
  if p = [] then some .directory else t.nodes.lookup p

/-- The list with `n` at `p`, in the position that `p` has, or else at the end. -/
def putIn (p : Place) (n : Node) : List (Place × Node) → List (Place × Node)
  | [] => [(p, n)]
  | (q, m) :: rest => if q = p then (p, n) :: rest else (q, m) :: putIn p n rest

/-- The tree with `n` at `p`. -/
def put (t : Tree) (p : Place) (n : Node) : Tree :=
  { t with nodes := putIn p n t.nodes }

theorem lookup_putIn (p : Place) (n : Node) (l : List (Place × Node)) :
    (putIn p n l).lookup p = some n := by
  induction l with
  | nil => simp [putIn]
  | cons x l ih =>
    obtain ⟨q, m⟩ := x
    by_cases h : q = p
    · simp [putIn, h]
    · simp only [putIn, h, if_false, List.lookup_cons]
      rw [beq_false_of_ne (Ne.symm h)]
      exact ih

theorem lookup_putIn_of_ne {p q : Place} (n : Node) (l : List (Place × Node)) (h : q ≠ p) :
    (putIn p n l).lookup q = l.lookup q := by
  induction l with
  | nil => simp [putIn, List.lookup_cons, beq_false_of_ne h]
  | cons x l ih =>
    obtain ⟨r, m⟩ := x
    by_cases hr : r = p
    · subst hr
      simp [putIn, List.lookup_cons, beq_false_of_ne h]
    · simp only [putIn, hr, if_false, List.lookup_cons]
      rw [ih]

theorem node?_put {t : Tree} {p : Place} {n : Node} (h : p ≠ []) :
    (t.put p n).node? p = some n := by
  simp [node?, put, h, lookup_putIn]

theorem node?_put_of_ne {t : Tree} {p q : Place} {n : Node} (h : q ≠ p) :
    (t.put p n).node? q = t.node? q := by
  simp only [node?, put]
  split
  · rfl
  · exact lookup_putIn_of_ne n t.nodes h

/-- A tree with nothing in it but its working directory and the devices. -/
def withDevices (home : Place) : Tree :=
  let ways := (List.range home.length).map fun n => (home.take (n + 1), Node.directory)
  { nodes := ways ++ [(["dev"], .directory), (["dev", "null"], .null), (["dev", "full"], .full)], home }

/-! ## Paths -/

/-- Whether a path starts at the root. -/
def isAbsolute (path : String) : Bool :=
  path.toList.head? == some '/'

/-- The names that a path is made of. -/
def names (path : String) : List String :=
  ((pieces '/' path.toList).filter (· ≠ [])).map String.ofList

/-- Whether a path ends with a slash. -/
def endsWithSlash (path : String) : Bool :=
  path.toList.getLast? == some '/'

/-- The place where the walk of a path starts. -/
def start (t : Tree) (path : String) : Place :=
  if isAbsolute path then [] else t.home

/-- The most octets that one name may have. -/
def longestName : Nat := 255

/-- The number of octets that a whole path must stay below. -/
def pathLimit : Nat := 4096

/-- The walk along `ns` from the place `here`. -/
def walk (t : Tree) (here : Place) : List String → Except Fault Place
  | [] => .ok here
  | n :: ns =>
    match t.node? here with
    | none => .error .notFound
    | some .directory =>
      if n = "." then walk t here ns
      else if n = ".." then walk t here.dropLast ns
      else if longestName < n.utf8ByteSize then .error .nameTooLong
      else if t.node? (here ++ [n]) = none then .error .notFound
      else walk t (here ++ [n]) ns
    | some _ => .error .notADirectory

/-- What is wrong with a path before any walk. -/
def badPath? (path : String) : Option Fault :=
  if '\x00' ∈ path.toList then some .nulInPath
  else if path = "" then some .notFound
  else if pathLimit ≤ path.utf8ByteSize then some .nameTooLong
  else none

/-- The place that a path leads to. -/
def locate (t : Tree) (path : String) : Except Fault Place :=
  match badPath? path with
  | some f => .error f
  | none =>
    t.walk (t.start path) (names path ++ if endsWithSlash path then ["."] else [])

/-- The place of a file to be written by a path: the last name need not be there, but its parent has to
be, and it must not be a directory. -/
def locateNew (t : Tree) (path : String) : Except Fault Place :=
  match badPath? path with
  | some f => .error f
  | none =>
    let ns := names path
    match ns.getLast? with
    | none => .error .isADirectory
    | some last =>
      if last = "." ∨ last = ".." then
        match t.walk (t.start path) ns with
        | .error f => .error f
        | .ok _ => .error .isADirectory
      else
        match t.walk (t.start path) (ns.dropLast ++ ["."]) with
        | .error f => .error f
        | .ok parent =>
          if endsWithSlash path then .error .isADirectory
          else if longestName < last.utf8ByteSize then .error .nameTooLong
          else if t.node? (parent ++ [last]) = some .directory then .error .isADirectory
          else .ok (parent ++ [last])

/-- Whether a path leads to a regular file. -/
def isFile (t : Tree) (path : String) : Bool :=
  match t.locate path with
  | .error _ => false
  | .ok p =>
    match t.node? p with
    | some (.file _) => true
    | _ => false

/-- The text of a place as an absolute path. -/
def placeText (p : Place) : String :=
  String.join (p.map ("/" ++ ·))

/-- A path made absolute by putting the working directory ahead of it, if it is there; nothing is
simplified. -/
def absolute? (t : Tree) (path : String) : Option String :=
  if isAbsolute path then some path
  else if t.node? t.home = some .directory then some (placeText t.home ++ "/" ++ path)
  else none

end Tree

end CoreBench.Files
