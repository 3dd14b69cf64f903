import EventJournal.Error.Basic
import EventJournal.Decimal.Shortest

/-!
# Metrics

Operations report what they did as samples: a counter grows by an amount, a gauge takes a value. A
`MetricLog` is the samples in the order they were reported. The exposition of a log has a line for
each counter and each gauge ever touched, in the order of the lines.

Main statements: `count_append`, the count of a counter adds up over logs; `gauge?_append`, the value of a
gauge is that of the later log.
-/

namespace EventJournal

/-- A metric's name and labels. -/
structure MetricKey where
  name : String
  labels : List (String × String)
  deriving Repr, DecidableEq, Inhabited

/-- One report. -/
inductive Sample where
  | count (key : MetricKey) (amount : Nat)
  | gauge (key : MetricKey) (value : Int)
  deriving Repr, DecidableEq, Inhabited

/-- What a sample adds to a counter. -/
def Sample.amount (sample : Sample) (key : MetricKey) : Nat :=
  match sample with
  | .count k amount => if k = key then amount else 0
  | .gauge _ _ => 0

/-- Samples in the order they were reported. -/
abbrev MetricLog := List Sample

namespace MetricLog

/-- What a counter has counted. -/
def count (log : MetricLog) (key : MetricKey) : Nat :=
  log.foldr (fun sample total => sample.amount key + total) 0

theorem count_append (a b : MetricLog) (key : MetricKey) :
    count (a ++ b) key = count a key + count b key := by
  induction a with
  | nil => simp [count]
  | cons sample rest ih =>
    simp only [count, List.cons_append, List.foldr_cons] at ih ⊢
    omega

/-- The value a gauge was given last. -/
def gauge? (log : MetricLog) (key : MetricKey) : Option Int :=
  (log.reverse.findSome? fun sample => match sample with
    | .gauge k value => if k = key then some value else none
    | .count _ _ => none)

/-- Of two logs the later one decides, if it gave the gauge a value. -/
theorem gauge?_append (a b : MetricLog) (key : MetricKey) :
    gauge? (a ++ b) key = (gauge? b key).or (gauge? a key) := by
  simp only [gauge?, List.reverse_append, List.findSome?_append]

/-- The keys of counters, each once. -/
def counters (log : MetricLog) : List MetricKey :=
  (log.filterMap fun sample => match sample with
    | .count key _ => some key
    | .gauge _ _ => none).eraseDups

/-- The keys of gauges, each once. -/
def gauges (log : MetricLog) : List MetricKey :=
  (log.filterMap fun sample => match sample with
    | .gauge key _ => some key
    | .count _ _ => none).eraseDups

/-! ## Exposition -/

/-- One character of a label's value. -/
def labelChar : Char → List Char
  | '"' => ['\\', '"']
  | '\\' => ['\\', '\\']
  | '\n' => ['\\', 'n']
  | c => [c]

/-- A label. -/
def labelText (label : String × String) : String :=
  label.1 ++ "=\"" ++ String.ofList (label.2.toList.flatMap labelChar) ++ "\""

/-- A metric's name with its labels. -/
def keyText (key : MetricKey) : String :=
  if key.labels.isEmpty then key.name
  else key.name ++ "\x7b" ++ ",".intercalate (key.labels.map labelText) ++ "\x7d"

/-- A line for each metric ever touched, in the order of the lines. -/
def lines (log : MetricLog) : List String :=
  let counts := log.counters.map fun key => keyText key ++ " " ++ toString (log.count key)
  let gauges := log.gauges.filterMap fun key =>
    (log.gauge? key).map fun value => keyText key ++ " " ++ Decimal.plain value
  (counts ++ gauges).mergeSort (fun a b => a ≤ b)

end MetricLog

/-! ## The metrics of the journal -/

namespace Sample

/-- Events were appended. -/
def appended (backend : String) (amount : Nat) : Sample :=
  .count ⟨"eventlog_events_appended_total", [("backend", backend)]⟩ amount

/-- An append met another version than expected. -/
def conflict (backend : String) : Sample :=
  .count ⟨"eventlog_append_conflicts_total", [("backend", backend)]⟩ 1

/-- A failure was logged. -/
def failure (code : ErrorCode) : Sample :=
  .count ⟨"eventlog_errors_total", [("code", code.display), ("category", code.category)]⟩ 1

/-- A subscription was opened. -/
def subscriptionOpened : Sample := .count ⟨"eventlog_subscriptions_opened_total", []⟩ 1

/-- So many subscribers are registered. -/
def activeSubscriptions (amount : Nat) : Sample :=
  .gauge ⟨"eventlog_active_subscriptions", []⟩ amount

/-- So many records went through an upcaster. -/
def upcast (amount : Nat) : Sample := .count ⟨"eventlog_events_upcast_total", []⟩ amount

/-- A processor handled a record. -/
def processed (processor : String) : Sample :=
  .count ⟨"eventlog_events_processed_total", [("processor", processor)]⟩ 1

/-- A processor's handler failed. -/
def processorFailure (processor : String) : Sample :=
  .count ⟨"eventlog_processor_failures_total", [("processor", processor)]⟩ 1

/-- A processor's checkpoint stands at a position. -/
def checkpointPosition (processor : String) (position : Position) : Sample :=
  .gauge ⟨"eventlog_checkpoint_position", [("processor", processor)]⟩ position.toInt

end Sample

end EventJournal
