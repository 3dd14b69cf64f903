import EventJournal.Metrics

/-!
# Reporting failures

A failure that is logged is counted by code and category, and written as one line whose level follows
its severity.
-/

namespace EventJournal

/-- A log line about a failure. -/
structure LogLine where
  level : String
  message : String
  code : String
  category : String
  error : String
  deriving Repr, DecidableEq, Inhabited

namespace StoreError

/-- The log line of a failure. -/
def logLine (error : StoreError) : LogLine :=
  let (level, message) := match error.severity with
    | .high => ("ERROR", "Event log operation failed")
    | .medium => ("WARN", "Event log operation rejected")
    | .low => ("DEBUG", "Event log operation refused")
  { level, message, code := error.code.display, category := error.code.category,
    error := error.message }

/-- The sample that counts a logged failure. -/
def sample (error : StoreError) : Sample := .failure error.code

end StoreError

end EventJournal
