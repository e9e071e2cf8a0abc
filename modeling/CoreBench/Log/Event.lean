/-!
Log events and their levels, from the most severe to the most talkative, the limits that a filter puts on levels, and
the lines that show events.

Stated here:
  * `Limit.admits_iff`: a limit admits exactly the levels at least as severe as its own.
-/

namespace CoreBench.Log

/-! ## Levels -/

/-- How severe an event is. -/
inductive Level where
  | error
  | warn
  | info
  | debug
  | trace
  deriving DecidableEq, Repr

/-- All levels, the most severe first. -/
def Level.all : List Level := [.error, .warn, .info, .debug, .trace]

/-- The name of a level as log lines show it. -/
def Level.label : Level → String
  | .error => "ERROR"
  | .warn => "WARN"
  | .info => "INFO"
  | .debug => "DEBUG"
  | .trace => "TRACE"

/-- The position of a level, 1 being the most severe. -/
def Level.rank : Level → Nat
  | .error => 1
  | .warn => 2
  | .info => 3
  | .debug => 4
  | .trace => 5

/-! ## Limits -/

/-- The last level that a filter lets through, or none at all. -/
inductive Limit where
  | off
  | upTo (level : Level)
  deriving DecidableEq, Repr

/-- Whether a limit lets events of a level through. -/
def Limit.admits : Limit → Level → Bool
  | .off, _ => false
  | .upTo l, level => level.rank ≤ l.rank

theorem Limit.admits_iff {l level : Level} :
    (Limit.upTo l).admits level = true ↔ level.rank ≤ l.rank := by
  simp [Limit.admits]

/-- The names of the limits. -/
def limitNames : List (String × Limit) :=
  [("off", .off), ("error", .upTo .error), ("warn", .upTo .warn), ("info", .upTo .info),
    ("debug", .upTo .debug), ("trace", .upTo .trace)]

/-- The limit with a name, in letters of either case. -/
def Limit.named? (s : List Char) : Option Limit :=
  limitNames.lookup (String.ofList (s.map Char.toLower))

/-! ## Events -/

/-- Something worth noting: where it happened, how severe it is, what to say, and named values. -/
structure Event where
  level : Level
  target : String
  message : String
  fields : List (String × String) := []
  deriving DecidableEq, Repr

/-- The line that shows an event: level, target, message, and the values by name. -/
def Event.line (e : Event) : String :=
  e.level.label ++ " " ++ e.target ++ ": " ++ e.message
    ++ String.join (e.fields.map fun f => " " ++ f.1 ++ "=" ++ f.2)

end CoreBench.Log
