import Switchboard.Json.Printer

/-!
# Switchboard.Journal

What is written down while requests are handled: log records, and marks that
resolvers, scripts and hooks leave on their own account.  A journal lists its
newest entry first.
-/

namespace Switchboard

inductive LogLevel where
  | info | warn | error
  deriving DecidableEq

def LogLevel.name : LogLevel → String
  | .info => "INFO"
  | .warn => "WARN"
  | .error => "ERROR"

/-- A log record: its message and the fields beside it. -/
structure LogRecord where
  level : LogLevel
  message : String
  fields : List (String × Json) := []

/-- An entry of a journal. -/
inductive Entry where
  | record (r : LogRecord)
  | mark (m : Json)

def Entry.toJson : Entry → Json
  | .record r => .ofMembers <|
      ("log", .string r.level.name) :: ("message", .string r.message) :: r.fields
  | .mark m => m

abbrev Journal := List Entry

namespace Journal

/-- Write records down in order. -/
def log (j : Journal) (records : List LogRecord) : Journal :=
  (records.map Entry.record).reverse ++ j

/-- The entries, oldest first. -/
def toList (j : Journal) : List Entry := j.reverse

end Journal

end Switchboard
