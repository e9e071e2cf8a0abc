import CoreBench.Log.Directive

/-!
Specifications of a log filter: a level for everything, and directives on top of it. The entries of an
environment variable replace the directives as soon as one of them is valid, so that a bare level there
reaches every target.
-/

namespace CoreBench.Log

open CoreBench.Text

variable [Dialect]

/-- A level for all targets and directives on top of it. -/
structure Spec where
  level : Level
  directives : List Directive

/-- The directives that the programs bring along, each as it is read. -/
def builtin : List Directive :=
  builtinEntries.pmap (fun e h => (Directive.read? (trim e.toList)).get h) Dialect.read?_builtin

namespace Spec

/-- The given directives on top of `info`. -/
def new (directives : List Directive) : Spec :=
  ⟨.info, directives⟩

/-- The specification with another level. -/
def withLevel (s : Spec) (level : Level) : Spec :=
  { s with level }

/-- The specification with the built-in directives ahead of its own. -/
def withDefaults (s : Spec) : Spec :=
  { s with directives := builtin ++ s.directives }

/-- The specification with more directives behind its own. -/
def withDirectives (s : Spec) (more : List Directive) : Spec :=
  { s with directives := s.directives ++ more }

/-- The built-in directives on top of `info`. -/
def default : Spec :=
  ((new []).withDefaults).withLevel .info

end Spec

/-- The entries of a comma-separated list, without the blanks around them and without empty ones. -/
def entries (s : List Char) : List (List Char) :=
  ((pieces ',' s).map trim).filter (· ≠ [])

/-- The valid directives of a list, in order. -/
def valid (s : List Char) : List Directive :=
  (entries s).filterMap Directive.read?

/-- The entries of a list that are no directives, in order. -/
def rejected (s : List Char) : List (List Char) :=
  (entries s).filter fun e => (Directive.read? e).isNone

namespace Spec

/-- The directives in effect under an environment list: its valid ones, or the own ones if it has none. -/
def effective (s : Spec) (list : List Char) : List Directive :=
  if (valid list).isEmpty then s.directives else valid list

/-- The filter of a specification under an environment list: its level for all targets, and then the
directives in effect. -/
def filter (s : Spec) (list : List Char) : Filter :=
  Filter.addAll (Dialect.add Dialect.empty (Dialect.bare (.upTo s.level))) (s.effective list)

end Spec

end CoreBench.Log
