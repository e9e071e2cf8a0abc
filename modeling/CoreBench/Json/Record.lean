import CoreBench.Json.Value

/-!
Records in JSON documents: an object whose members are the fields of the record by name, or a list that has
them in order. Members of other names are ignored, but no field may be given twice.
-/

namespace CoreBench.Json

/-- The values of the fields with the given names, where they are given. -/
def record? (names : List String) : Json → Option (List (Option Json))
  | .object ms =>
    if ms.all (fun m => (text? m.1).isSome)
        && names.all (fun n => (ms.filter fun m => m.1 = points n).length ≤ 1) then
      some (names.map fun n => ms.lookup (points n))
    else none
  | .list vs =>
    if vs.length ≤ names.length then
      some (vs.map some ++ List.replicate (names.length - vs.length) none)
    else none
  | _ => none

/-- A field read by `read`, or `missing` if it is not given. -/
def field {α : Type} (read : Json → Option α) (missing : α) : Option Json → Option α
  | none => some missing
  | some v => read v

/-- A value that may be absent: `null`, or what `read` reads. -/
def optional {α : Type} (read : Json → Option α) : Json → Option (Option α)
  | .null => some none
  | v => (read v).map some

/-- One of several named choices: its name, or an object with nothing but that name and `null`. -/
def choice? {α : Type} (choices : List (String × α)) : Json → Option α
  | .text ps => (text? ps).bind fun s => choices.lookup s
  | .object [(k, .null)] => (text? k).bind fun s => choices.lookup s
  | _ => none

end CoreBench.Json
