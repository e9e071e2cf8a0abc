import CoreBench.Number.Binary64

/-!
Settings before they have a type: plain values, lists, and tables of named values. Values from several
sources are merged: what comes later stands, except that tables are merged entry by entry.

Stated here:
  * `lookup_set`, `lookup_set_of_ne`: setting one entry of a table shows there and nowhere else;
  * `merge_of_plain`: a value that is no table takes the place of whatever was there.
-/

namespace CoreBench.Settings

/-- A value without a type. A table names each entry once. -/
inductive Value where
  | bool (b : Bool)
  | int (i : Int)
  | float (x : Binary64)
  | text (s : String)
  | list (items : List Value)
  | table (entries : List (String × Value))
  deriving Repr

/-- Named values. -/
abbrev Entries := List (String × Value)

/-- The entries with `v` under `k`, in the position that `k` has, or else at the end. -/
def Entries.set (k : String) (v : Value) : Entries → Entries
  | [] => [(k, v)]
  | (n, w) :: rest => if n = k then (k, v) :: rest else (n, w) :: Entries.set k v rest

theorem lookup_set (k : String) (v : Value) (es : Entries) :
    (Entries.set k v es).lookup k = some v := by
  induction es with
  | nil => simp [Entries.set]
  | cons e es ih =>
    obtain ⟨n, w⟩ := e
    by_cases h : n = k
    · simp [Entries.set, h]
    · simp only [Entries.set, h, if_false, List.lookup_cons]
      rw [beq_false_of_ne (Ne.symm h)]
      exact ih

theorem lookup_set_of_ne {k l : String} (v : Value) (es : Entries) (h : l ≠ k) :
    (Entries.set k v es).lookup l = es.lookup l := by
  induction es with
  | nil => simp [Entries.set, List.lookup_cons, beq_false_of_ne h]
  | cons e es ih =>
    obtain ⟨n, w⟩ := e
    by_cases hn : n = k
    · subst hn
      simp [Entries.set, List.lookup_cons, beq_false_of_ne h]
    · simp only [Entries.set, hn, if_false, List.lookup_cons]
      rw [ih]

namespace Value

/-- The entries of a table; none for any other value. -/
def entries : Value → Entries
  | .table es => es
  | _ => []

/-- The items of a list; none for any other value. -/
def items : Value → List Value
  | .list vs => vs
  | _ => []

/-- Whether a value is a table. -/
def isTable : Value → Bool
  | .table _ => true
  | _ => false

mutual

/-- What stands after `new` has come upon `old`: `new` itself, unless it is a table, whose entries are
merged one by one into `old`. An empty table leaves `old` as it is. -/
def merge (old : Option Value) : Value → Value
  | .bool b => .bool b
  | .int i => .int i
  | .float x => .float x
  | .text s => .text s
  | .list vs => .list vs
  | .table es => mergeEntries (old.getD (.table [])) es
termination_by structural v => v

/-- `base` with each of the entries merged into it; the first one makes it a table if it was none. -/
def mergeEntries (base : Value) : List (String × Value) → Value
  | [] => base
  | (k, v) :: rest =>
    mergeEntries (.table (base.entries.set k (merge (base.entries.lookup k) v))) rest
termination_by structural es => es

end

theorem merge_of_plain {v : Value} (h : v.isTable = false) (old : Option Value) :
    merge old v = v := by
  cases v <;> simp_all [merge, isTable]

end Value

end CoreBench.Settings
