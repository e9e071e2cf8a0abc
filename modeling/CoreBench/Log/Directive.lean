import CoreBench.Log.Event
import CoreBench.Text.Alphanumeric
import CoreBench.Text.Cut
import CoreBench.Text.Digits

/-!
Directives of a log filter. Which texts are directives, and what a filter makes of them, is left to a dialect: that of
the library that filters the log. Of a dialect no more is taken for granted than that it knows the directives that the
programs bring along; what else is relied on is said in `Dialect.Lawful`.

At the end of the module is a small dialect, in which a directive sets the limit for the targets that start with its
own target, or for all targets if it has none. It is written `target=level`, `target` or `target=` for everything from
that target, or as a bare level. A list of them governs a target by the one with the longest target among those that
apply, and by the last of several with the same target. What a library knows besides, such as directives about spans
and fields, is beyond it.
-/

namespace CoreBench.Log

open CoreBench.Text

/-- The directives that the programs bring along, for their parts and for the settings reader. -/
def builtinEntries : List String :=
  ["trace_stats=info", "stimuli_gen=info", "tool_config=info", "fs_utils=info", "config=warn"]

/-- A library of log filters: the directives that it knows, the filters that they make, how directives are read and
filters are put together, and the events that a filter lets through. Two directives with one scope are about the same
targets, spans and fields. -/
class Dialect where
  Directive : Type
  Filter : Type
  Scope : Type
  /-- The directive that a text without blanks around it is, if it is one. -/
  read? : List Char → Option Directive
  scope : Directive → Scope
  /-- The directive that puts a limit on everything. -/
  bare : Limit → Directive
  /-- The filter that no directive has been added to. -/
  empty : Filter
  add : Filter → Directive → Filter
  /-- Whether a filter lets an event through that happens outside of all spans. -/
  passes : Filter → Event → Bool
  read?_builtin : ∀ e ∈ builtinEntries, (read? (trim e.toList)).isSome

/-- A directive of the dialect. -/
abbrev Directive [Dialect] : Type :=
  Dialect.Directive

/-- The directive that a text without blanks around it is, if it is one. -/
abbrev Directive.read? [Dialect] (s : List Char) : Option Directive :=
  Dialect.read? s

/-- A filter of the dialect. -/
abbrev Filter [Dialect] : Type :=
  Dialect.Filter

namespace Filter

variable [Dialect]

/-- The filter with more directives, one after the other. -/
def addAll (f : Filter) (ds : List Directive) : Filter :=
  ds.foldl Dialect.add f

/-- Whether a filter lets an event through. -/
abbrev passes (f : Filter) (e : Event) : Bool :=
  Dialect.passes f e

/-- Whether a filter lets an event through that has a target and a level and nothing else. -/
def admits (f : Filter) (target : String) (level : Level) : Bool :=
  f.passes ⟨level, target, "", []⟩

end Filter

/-- The lines of the events that a filter lets through. -/
def shown [Dialect] (f : Filter) (es : List Event) : List String :=
  (es.filter f.passes).map Event.line

/-- What is relied on of a dialect. -/
structure Dialect.Lawful [Dialect] : Prop where
  /-- The name of a limit is the directive that puts this limit on everything. -/
  read?_named : ∀ {s : List Char} {limit : Limit}, Limit.named? s = some limit → read? s = some (bare limit)
  /-- Limits on everything are about the same. -/
  scope_bare : ∀ l m : Limit, scope (bare l) = scope (bare m)
  /-- A directive replaces an earlier one about the same, wherever the two stand. -/
  passes_replaced : ∀ {d e : Directive} (f : Filter) (ds es : List Directive) (event : Event), scope d = scope e →
    passes (Filter.addAll f (d :: (ds ++ e :: es))) event = passes (Filter.addAll f (ds ++ e :: es)) event
  /-- A limit on everything that stands alone lets the levels up to it through. -/
  passes_bare : ∀ (limit : Limit) (event : Event), passes (add empty (bare limit)) event = limit.admits event.level

/-! ## Rules for targets -/

namespace Targets

/-- A limit for the targets that start with `target`, or for all. -/
structure Rule where
  target : Option String
  limit : Limit
  deriving DecidableEq, Repr

/-- A limit by its number, 0 being off and 5 the last level, or by its name in any case. -/
def readLimit? (s : List Char) : Option Limit :=
  match readNat max64 s with
  | .ok n => (limitNames[n]?).map Prod.snd
  | .error _ => Limit.named? s

/-- Whether a rule may start with a character. -/
def startsRule (c : Char) : Bool :=
  c = '-' || c = ':' || c = '_' || isAlphanumeric c

/-- A rule without blanks around it. After `=` there has to be a limit or nothing; without `=`, what is no limit is a
target. -/
def Rule.read? : List Char → Option Rule
  | [] => none
  | c :: s =>
    if startsRule c then
      match cut? ['='] (c :: s) with
      | none =>
        match readLimit? (c :: s) with
        | some limit => some ⟨none, limit⟩
        | none => some ⟨some (String.ofList (c :: s)), .upTo .trace⟩
      | some (target, []) => some ⟨some (String.ofList target), .upTo .trace⟩
      | some (target, limit) => (readLimit? limit).map (⟨some (String.ofList target), ·⟩)
    else none

/-- Whether a rule applies to a target. -/
def Rule.appliesTo (d : Rule) (target : String) : Bool :=
  match d.target with
  | none => true
  | some t => (after? t.toList target.toList).isSome

/-- How specific a rule is: the more of a target it names, the more. -/
def Rule.weight (d : Rule) : Nat :=
  match d.target with
  | none => 0
  | some t => t.length + 1

/-- The most specific rule that applies to a target, `best` being that of the rules passed. -/
def governingFrom (target : String) (best : Option Rule) : List Rule → Option Rule
  | [] => best
  | d :: ds =>
    if d.appliesTo target && (best.elim true fun b => b.weight ≤ d.weight) then
      governingFrom target (some d) ds
    else governingFrom target best ds

/-- The rule that governs a target. -/
def governing (ds : List Rule) (target : String) : Option Rule :=
  governingFrom target none ds

/-- The dialect of rules for targets, which the programs run with. -/
instance dialect : Dialect where
  Directive := Rule
  Filter := List Rule
  Scope := Option String
  read? := Rule.read?
  scope := Rule.target
  bare := Rule.mk none
  empty := []
  add f d := f ++ [d]
  passes f e := (governing f e.target).elim false fun d => d.limit.admits e.level
  read?_builtin := by decide

end Targets

end CoreBench.Log
