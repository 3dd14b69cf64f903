import EventJournal.Upcast.Draft
import EventJournal.Metrics

/-!
# Upcaster chains

An upcaster turns a draft it supports into drafts of a newer schema: none, one or several. A chain
threads a record through its stages depth first: each output of a stage goes through the later stages
before the next output is looked at, and the first failure ends it all.

A run of a chain is the calls it made, in order, and its outcome. `UpcastChain.stageByStage` is the other
way to look at a chain: every stage maps the whole list before the next stage begins.

Main statements: `UpcastRun.sequence_append`, running one list after another is running their
concatenation.
-/

namespace EventJournal

/-- One schema migration. -/
structure Upcaster where
  name : String
  supports : Draft → Bool
  /-- The newer form of a supported draft. -/
  upcast : Draft → Outcome (List Draft)
  /-- What a call writes into the upcaster's own log. -/
  notes : Draft → List Json := fun _ => []

/-- A call of an upcaster. -/
structure UpcastCall where
  upcaster : Upcaster
  draft : Draft

/-- What threading drafts through a chain did: the calls made, and the drafts that came out. -/
structure UpcastRun where
  calls : List UpcastCall
  outcome : Outcome (List Draft)

namespace UpcastRun

/-- A run that gives drafts without a call. -/
def pure (drafts : List Draft) : UpcastRun := ⟨[], .ok drafts⟩

/-- A run after a call. -/
def after (call : UpcastCall) (run : UpcastRun) : UpcastRun := { run with calls := call :: run.calls }

/-- One run after another; nothing follows a failure. -/
def append (first : UpcastRun) (second : UpcastRun) : UpcastRun :=
  match first.outcome with
  | .error error => ⟨first.calls, .error error⟩
  | .ok drafts => ⟨first.calls ++ second.calls, second.outcome.map (drafts ++ ·)⟩

/-- The runs of several drafts, one after another. -/
def sequence (run : Draft → UpcastRun) : List Draft → UpcastRun
  | [] => pure []
  | draft :: rest => (run draft).append (sequence run rest)

theorem sequence_append (run : Draft → UpcastRun) (a b : List Draft) :
    sequence run (a ++ b) = (sequence run a).append (sequence run b) := by
  induction a with
  | nil =>
    simp only [List.nil_append, sequence, pure, append]
    cases (sequence run b) with
    | mk calls outcome => cases outcome <;> simp [Except.map]
  | cons draft rest ih =>
    simp only [List.cons_append, sequence, ih]
    unfold append
    cases h : (run draft).outcome with
    | error error => simp
    | ok drafts =>
      cases (sequence run rest).outcome with
      | error error => simp [Except.map]
      | ok more =>
        simp only [Except.map, List.append_assoc]
        cases (sequence run b).outcome <;> simp

end UpcastRun

/-- An ordered list of upcasters. -/
structure UpcastChain where
  stages : List Upcaster

namespace UpcastChain

/-- Threads a draft through stages, depth first. -/
def thread : List Upcaster → Draft → UpcastRun
  | [], draft => .pure [draft]
  | upcaster :: rest, draft =>
    if upcaster.supports draft then
      match upcaster.upcast draft with
      | .error error => ⟨[⟨upcaster, draft⟩], .error error⟩
      | .ok outputs => (UpcastRun.sequence (thread rest) outputs).after ⟨upcaster, draft⟩
    else thread rest draft

/-- Threads one draft through the chain. -/
def upcast (chain : UpcastChain) (draft : Draft) : UpcastRun := thread chain.stages draft

/-- What upcasting records did: the calls made, and the records that came out. -/
structure RecordRun where
  calls : List UpcastCall
  outcome : Outcome (List Record)

/-- Threads records through the chain, in their order; without stages there is nothing to do. -/
def upcastRecords (chain : UpcastChain) (records : List Record) : RecordRun :=
  if chain.stages.isEmpty then ⟨[], .ok records⟩
  else
    let run := UpcastRun.sequence chain.upcast (records.map Draft.ofRecord)
    ⟨run.calls, run.outcome.map (·.map Draft.toRecord)⟩

/-- The counter of calls; without a call it is not touched. -/
def samples (calls : List UpcastCall) : MetricLog :=
  if calls.isEmpty then [] else [Sample.upcast calls.length]

/-- What the upcasters wrote into their own logs, in the order of the calls. -/
def log (calls : List UpcastCall) : List Json :=
  calls.flatMap fun call => call.upcaster.notes call.draft

/-- The names of the stages. -/
def names (chain : UpcastChain) : List String := chain.stages.map Upcaster.name

/-! ## Stage by stage -/

/-- What one stage makes of one draft. -/
def stageOne (upcaster : Upcaster) (draft : Draft) : Outcome (List Draft) :=
  if upcaster.supports draft then upcaster.upcast draft else .ok [draft]

/-- What one stage makes of a list. -/
def stageAll (upcaster : Upcaster) : List Draft → Outcome (List Draft)
  | [] => .ok []
  | draft :: rest =>
    match stageOne upcaster draft with
    | .error error => .error error
    | .ok outputs => (stageAll upcaster rest).map (outputs ++ ·)

/-- The whole list through one stage after another. -/
def stageByStage : List Upcaster → List Draft → Outcome (List Draft)
  | [], drafts => .ok drafts
  | upcaster :: rest, drafts =>
    match stageAll upcaster drafts with
    | .error error => .error error
    | .ok outputs => stageByStage rest outputs

end UpcastChain

end EventJournal
