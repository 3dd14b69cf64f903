import EventJournal.Proofs.Feed.Gauge
import EventJournal.Proofs.LogServer.Expectation

/-!
# What an append counts

Each kind of store counts the events it appended and the appends that met another version than expected, under
a label of its own. An append should raise the first counter by the records it gives and the second by one if it
fails with a conflict. In memory it does. Over a log server a batch with events does, since the verdict on it is
the server's; an empty batch is judged by the store itself, from the extent of the stream, and its conflict is
not counted.

* `Answer.Counts` — the counters that an append raises, and those that it leaves alone.
* `MemoryStore.append_counts`, `LogServer.send_counts`, `LogServer.append_nothing_counts` — one for each place
  where a batch is judged.
* `appends_counted` — the main statement, in any state.
-/

namespace EventJournal

/-! ## Counters -/

/-- The counter of the events that a kind of store appended. -/
def MetricKey.appended (backend : String) : MetricKey :=
  ⟨"eventlog_events_appended_total", [("backend", backend)]⟩

/-- The counter of the appends to a kind of store that met another version than expected. -/
def MetricKey.conflicts (backend : String) : MetricKey :=
  ⟨"eventlog_append_conflicts_total", [("backend", backend)]⟩

/-- The conflicts that an outcome reports, one or none. -/
def Outcome.conflicts {α : Type} : Outcome α → Nat
  | .error (.concurrency _ _ _) => 1
  | _ => 0

/-- The number of records that an outcome gives. -/
def Outcome.given : Outcome (List Record) → Nat
  | .ok records => records.length
  | .error _ => 0

/-- An append raises two counters of its own kind of store, by the records it gives and by so many conflicts, and
leaves those of other kinds alone. -/
structure Answer.Counts {σ : Type} (answer : Answer σ (List Record)) (own : String) (conflicts : Nat) :
    Prop where
  appended : ∀ (before : MetricLog) (backend : String),
    MetricLog.count (before ++ answer.samples) (.appended backend)
      = before.count (.appended backend) + if backend = own then answer.outcome.given else 0
  conflicts : ∀ (before : MetricLog) (backend : String),
    MetricLog.count (before ++ answer.samples) (.conflicts backend)
      = before.count (.conflicts backend) + if backend = own then conflicts else 0

section

variable (own backend : String) (amount : Nat)

theorem Sample.amount_appended :
    (Sample.appended own amount).amount (.appended backend) = if backend = own then amount else 0 := by
  simp [Sample.appended, Sample.amount, MetricKey.appended, eq_comm]

theorem Sample.amount_appended_conflicts :
    (Sample.appended own amount).amount (.conflicts backend) = 0 := by
  simp [Sample.appended, Sample.amount, MetricKey.conflicts]

theorem Sample.amount_conflict :
    (Sample.conflict own).amount (.conflicts backend) = if backend = own then 1 else 0 := by
  simp [Sample.conflict, Sample.amount, MetricKey.conflicts, eq_comm]

theorem Sample.amount_conflict_appended : (Sample.conflict own).amount (.appended backend) = 0 := by
  simp [Sample.conflict, Sample.amount, MetricKey.appended]

end

/-- A dispatch only sets a gauge. -/
theorem Subscribers.count_dispatch (subscribers : Subscribers) (records : List Record) (key : MetricKey) :
    MetricLog.count (subscribers.dispatch records).2 key = 0 := by
  simp only [dispatch]
  split <;> rfl

namespace Answer.Counts

variable {σ : Type} {answer : Answer σ (List Record)} {own : String}

/-- An append that reports nothing gives nothing. -/
theorem silent (samples : answer.samples = []) (given : answer.outcome.given = 0) :
    answer.Counts own 0 := by
  constructor
  · intro before backend
    rw [samples, given, List.append_nil, ite_self, Nat.add_zero]
  · intro before backend
    rw [samples, List.append_nil, ite_self, Nat.add_zero]

/-- A conflict that is counted. -/
theorem conflicted (samples : answer.samples = [.conflict own]) (given : answer.outcome.given = 0) :
    answer.Counts own 1 := by
  constructor
  · intro before backend
    rw [samples, given, MetricLog.count_append, ite_self]
    exact congrArg _ (Sample.amount_conflict_appended own backend)
  · intro before backend
    rw [samples, MetricLog.count_append, ← Sample.amount_conflict own backend]
    rfl

/-- A batch that is appended and counted, with other reports that do not count. -/
theorem added {rest : MetricLog} (uncounted : ∀ key, rest.count key = 0)
    (samples : answer.samples = .appended own answer.outcome.given :: rest) : answer.Counts own 0 := by
  constructor
  · intro before backend
    rw [samples, MetricLog.count_append, ← Sample.amount_appended own backend]
    exact congrArg _ (congrArg _ (uncounted _))
  · intro before backend
    rw [samples, MetricLog.count_append, ite_self]
    have hfirst := Sample.amount_appended_conflicts own backend answer.outcome.given
    exact congrArg _ (congrArg₂ _ hfirst (uncounted _))

/-- The counters tell how many conflicts were counted. -/
theorem conflicts_unique {n m : Nat} (h : answer.Counts own n) (h' : answer.Counts own m) : n = m := by
  have hn := h.conflicts [] own
  have hm := h'.conflicts [] own
  rw [if_pos rfl] at hn hm
  omega

end Answer.Counts

/-! ## In memory -/

namespace MemoryStore

/-- Each outcome of an append in memory has its counts. -/
theorem append_counts (store : MemoryStore) (stream : StreamId) (now : Timestamp) (events : List Event)
    (expected : Option StreamVersion) :
    (store.append stream now events expected).Counts backend
      (store.append stream now events expected).outcome.conflicts := by
  by_cases hglobal : stream = .global
  · rw [append_of_global store now events expected hglobal]
    exact .silent rfl rfl
  rw [append_of_ne_global store now events expected hglobal]
  -- the checks in the order in which they are made
  unfold appendChecked
  cases hunique : checkUnique events with
  | error error =>
    obtain ⟨-, event, -, -, -, -, rfl⟩ := checkUnique_eq_error hunique
    exact .silent rfl rfl
  | ok done =>
    cases hcheck : checkExpected stream expected (store.versionOf stream) with
    | error error =>
      obtain ⟨version, -, -, rfl⟩ := checkExpected_eq_error hcheck
      exact .conflicted rfl rfl
    | ok done =>
      dsimp only
      split
      · exact .silent rfl rfl
      · split
        · exact .silent rfl rfl
        · rw [add_eq]
          exact .added (store.subscribers.count_dispatch _) rfl

end MemoryStore

/-! ## Over a log server -/

namespace LogServer

/-- The version of a stream as its extent tells it: the initial one if there is none. -/
def toldVersion (server : LogModel) (stream : StreamId) : StreamVersion :=
  match (bounds LogModel.client stream server).outcome with
  | .ok bounds => bounds.version
  | .error _ => .initial

/-- Telling the extent of a stream reports nothing, and fails only if there is none. -/
theorem bounds_cases (stream : StreamId) (server : LogModel) :
    (bounds LogModel.client stream server).samples = [] ∧
      ((∃ extent, (bounds LogModel.client stream server).outcome = .ok extent) ∨
        (bounds LogModel.client stream server).outcome = .error (.streamNotFound stream)) := by
  rw [bounds, readFor_eq]
  simp only [Answer.unchanged, Answer.andThen, readFor_eq]
  split
  · exact ⟨rfl, .inl ⟨_, rfl⟩⟩
  · exact ⟨rfl, .inr rfl⟩

/-- An empty batch is judged by the version that is told, and the verdict is not reported. -/
theorem checkBounds_eq (stream : StreamId) (version : StreamVersion) (server : LogModel) :
    (checkBounds LogModel.client stream version server).samples = [] ∧
      (checkBounds LogModel.client stream version server).outcome
        = checkExpected stream (some version) (toldVersion server stream) := by
  obtain ⟨hsamples, ⟨extent, hfound⟩ | hmissing⟩ := bounds_cases stream server
  · exact ⟨hsamples, by simp only [checkBounds, toldVersion, hfound]; rfl⟩
  · exact ⟨hsamples, by simp only [checkBounds, toldVersion, hmissing]; rfl⟩

/-- An empty batch is never counted, and conflicts just if another version is told. -/
theorem append_nothing_counts (stream : StreamId) (expected : Option StreamVersion) (server : LogModel) :
    (append LogModel.client stream [] expected server).Counts backend 0 ∧
      ((append LogModel.client stream [] expected server).outcome.conflicts = 0 ↔
        ¬ (stream ≠ .global ∧ ∃ version ∈ expected, version ≠ toldVersion server stream)) := by
  unfold append
  by_cases hglobal : stream = .global
  · subst hglobal
    exact ⟨.silent rfl rfl, iff_of_true rfl fun h => h.1 rfl⟩
  have hunique : checkUnique [] = .ok () := rfl
  rw [ensureWritable_of_ne_global hglobal, hunique]
  cases expected with
  | none => exact ⟨.silent rfl rfl, iff_of_true rfl fun ⟨_, version, hversion, _⟩ => nomatch hversion⟩
  | some version =>
    obtain ⟨hsamples, houtcome⟩ := checkBounds_eq stream version server
    have hsilent : ((checkBounds LogModel.client stream version server).map
        fun _ => ([] : List Record)).outcome.given = 0 := by
      rw [Answer.map, houtcome]
      cases checkExpected stream (some version) (toldVersion server stream) <;> rfl
    refine ⟨.silent hsamples hsilent, ?_⟩
    show Outcome.conflicts (Except.map _ (checkBounds LogModel.client stream version server).outcome) = 0 ↔ _
    rw [houtcome, checkExpected]
    by_cases hsame : version = toldVersion server stream
    · rw [if_pos hsame]
      refine iff_of_true rfl ?_
      rintro ⟨-, other, hother, hne⟩
      cases hother
      exact hne hsame
    · rw [if_neg hsame]
      exact iff_of_false Nat.one_ne_zero (not_not_intro ⟨hglobal, version, rfl, hsame⟩)

/-- A batch that is sent has the counts of the server's verdict. -/
theorem send_counts (stream : StreamId) (events : List Event) (expected : Option StreamVersion)
    (server : LogModel) :
    (send LogModel.client stream events expected server).Counts backend
      (send LogModel.client stream events expected server).outcome.conflicts := by
  unfold send
  dsimp only [LogModel.client]
  cases (server.append stream (.ofVersion expected) (events.map ProposedEvent.ofEvent)).1 with
  | success records =>
    refine .added (fun _ => (rfl : MetricLog.count [] _ = 0)) ?_
    show [Sample.appended backend records.length] = [Sample.appended backend (records.map _).length]
    rw [List.length_map]
  | wrongVersion actual => exact .conflicted rfl rfl
  | duplicate id => exact .silent rfl rfl

/-- An append with events has the counts of its outcome. -/
theorem append_counts (stream : StreamId) {events : List Event} (nonempty : events ≠ [])
    (expected : Option StreamVersion) (server : LogModel) :
    (append LogModel.client stream events expected server).Counts backend
      (append LogModel.client stream events expected server).outcome.conflicts := by
  unfold append
  by_cases hglobal : stream = .global
  · subst hglobal
    exact .silent rfl rfl
  have hempty : events.isEmpty = false := List.isEmpty_eq_false_iff.mpr nonempty
  rw [ensureWritable_of_ne_global hglobal]
  cases hunique : checkUnique events with
  | error error =>
    obtain ⟨-, event, -, -, -, -, rfl⟩ := MemoryStore.checkUnique_eq_error hunique
    exact .silent rfl rfl
  | ok done =>
    simp only [hempty, Bool.false_eq_true, if_false]
    exact send_counts stream events expected server

end LogServer

/-! ## What is not counted -/

/-- **Appends are counted, but for conflicts of empty batches over a log server**: in any state, and for any stream,
batch and expected version, an append raises the counter of appended events by the records it gives and no other
label's. In memory it raises the counter of conflicts by one if it fails with a conflict, and not otherwise. Over a
log server it does the same unless the batch is empty; then it counts no conflict. So the counts are those of the
outcome unless an empty batch expects another version than the one that the extent of the stream tells. -/
theorem appends_counted (stream : StreamId) (events : List Event) (expected : Option StreamVersion) :
    (∀ (store : MemoryStore) (now : Timestamp),
      let answer := store.append stream now events expected
      answer.Counts MemoryStore.backend answer.outcome.conflicts) ∧
    ∀ server : LogModel,
      let answer := LogServer.append LogModel.client stream events expected server
      answer.Counts LogServer.backend (if events = [] then 0 else answer.outcome.conflicts) ∧
        (answer.Counts LogServer.backend answer.outcome.conflicts ↔
          ¬ (events = [] ∧ stream ≠ .global ∧
            ∃ version ∈ expected, version ≠ LogServer.toldVersion server stream)) := by
  refine ⟨fun store now => store.append_counts stream now events expected, fun server => ?_⟩
  by_cases hempty : events = []
  · subst hempty
    obtain ⟨hnothing, hconflicts⟩ := LogServer.append_nothing_counts stream expected server
    refine ⟨hnothing, ?_⟩
    rw [eq_self, true_and, ← hconflicts]
    constructor
    · intro hcounts
      exact hcounts.conflicts_unique hnothing
    · intro hnone
      rw [hnone]
      exact hnothing
  · have hcounts := LogServer.append_counts stream hempty expected server
    intro answer
    rw [if_neg hempty]
    exact ⟨hcounts, iff_of_true hcounts fun h => hempty h.1⟩

/-- On a stream at version 0 nothing is appended to version 5: the conflict is counted in memory and not over a log
server. -/
theorem appends_counted_sample :
    let first : List Event := [⟨⟨"A"⟩, "t", .null, .empty⟩]
    let store := (MemoryStore.empty.append ⟨"s"⟩ default first none).state
    let server := (LogServer.append LogModel.client ⟨"s"⟩ first none .empty).state
    let conflict : Outcome (List Record) := .error (.concurrency ⟨"s"⟩ ⟨5⟩ ⟨0⟩)
    (store.append ⟨"s"⟩ default [] (some ⟨5⟩)).outcome = conflict ∧
      (LogServer.append LogModel.client ⟨"s"⟩ [] (some ⟨5⟩) server).outcome = conflict ∧
      (store.append ⟨"s"⟩ default [] (some ⟨5⟩)).samples = [.conflict "memory"] ∧
      (LogServer.append LogModel.client ⟨"s"⟩ [] (some ⟨5⟩) server).samples = [] ∧
      ¬ (LogServer.append LogModel.client ⟨"s"⟩ [] (some ⟨5⟩) server).Counts "log_server" 1 := by
  intro first store server conflict
  refine ⟨rfl, rfl, rfl, rfl, fun hcounts => ?_⟩
  obtain ⟨-, hserver⟩ := appends_counted ⟨"s"⟩ [] (some ⟨5⟩)
  exact (hserver server).2.mp hcounts ⟨rfl, by decide, ⟨5⟩, rfl, by decide⟩

end EventJournal
