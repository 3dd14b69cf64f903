import EventJournal.Metrics

/-!
# Recording metrics

Metrics are recorded only if that is enabled. What was recorded is either kept here, to be written on
demand, or served by a listener of its own.
-/

namespace EventJournal

/-- Whether metrics are recorded, and whether they are kept here. -/
structure MetricsRecorder where
  isEnabled : Bool
  keepsSamples : Bool
  deriving Repr, DecidableEq, Inhabited

namespace MetricsRecorder

/-- Nothing is recorded. -/
def disabled : MetricsRecorder := ⟨false, false⟩

/-- What was recorded, a metric a line. -/
def render (recorder : MetricsRecorder) (samples : MetricLog) : String :=
  if recorder.isEnabled && recorder.keepsSamples then
    String.join (samples.lines.map (· ++ "\n"))
  else ""

/-- A recorder as it is shown to a developer. -/
def debugText (recorder : MetricsRecorder) : String :=
  "MetricsRegistry \x7b enabled: " ++ toString recorder.isEnabled ++ ", prometheus_handle: " ++
    toString recorder.keepsSamples ++ " \x7d"

end MetricsRecorder

end EventJournal
