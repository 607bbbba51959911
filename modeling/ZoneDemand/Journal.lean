/-!
# The journal

What a run reports while it works: entries of three severities with a text and
named details, in the order in which they arise.
-/

namespace ZoneDemand

inductive Severity where
  | warn
  | info
  | debug
deriving DecidableEq, Repr

namespace Severity

def name : Severity → String
  | .warn => "warn"
  | .info => "info"
  | .debug => "debug"

def verbosity : Severity → Nat
  | .warn => 0
  | .info => 1
  | .debug => 2

/-- An entry of this severity is shown at the given level. -/
def shownAt (s level : Severity) : Bool := s.verbosity ≤ level.verbosity

/-- The least severe entries that a log level shows; a level of another name is that
of `info`. -/
def ofLevel (level : String) : Severity :=
  ([warn, info, debug].find? fun s => s.name = level).getD .info

end Severity

structure Entry where
  severity : Severity
  message : String
  details : List (String × String)
deriving DecidableEq, Repr

namespace Entry

def warn (message : String) (details : List (String × String)) : Entry :=
  ⟨.warn, message, details⟩

def info (message : String) (details : List (String × String)) : Entry :=
  ⟨.info, message, details⟩

def debug (message : String) (details : List (String × String)) : Entry :=
  ⟨.debug, message, details⟩

end Entry

abbrev Journal := List Entry

def Journal.shownAt (journal : Journal) (level : Severity) : Journal :=
  journal.filter fun entry => entry.severity.shownAt level

end ZoneDemand
