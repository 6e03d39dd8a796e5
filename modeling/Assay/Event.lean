/-!
# Events

What a run reports while it goes on. Every event has a level, and a listener hears those at or above
the level it asked for.
-/

namespace Assay

/-- How important an event is. -/
inductive Level
  | debug
  | info
  | warning
  | error
  deriving DecidableEq, Repr

namespace Level

/-- All levels in ascending order. -/
def all : List Level := [.debug, .info, .warning, .error]

/-- The name of a level. -/
def name : Level → String
  | .debug => "DEBUG"
  | .info => "INFO"
  | .warning => "WARNING"
  | .error => "ERROR"

/-- The place of a level in the order. -/
def rank : Level → Nat
  | .debug => 0
  | .info => 1
  | .warning => 2
  | .error => 3

end Level

/-- A message with its level. -/
structure Event where
  level : Level
  message : String
  deriving DecidableEq, Repr

/-- The events that are heard at a level. -/
def heardAt (level : Level) (events : List Event) : List Event :=
  events.filter fun e => level.rank ≤ e.level.rank

end Assay
