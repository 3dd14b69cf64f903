import EventJournal.Proofs.Feed.Follow

/-!
# The gauge of registered subscribers

Whoever registers or leaves has the gauge set to the number of those registered then. Nothing else sets it:
among subscribers who all listen a dispatch finds nobody gone, so a write reports nothing of them, and a pump
reports only that it left.

* `Journal.reports`, `Journal.reported` — the samples of an action and of a list of actions.
* `Journal.gauge_step`, `Journal.gauge_run` — the gauge shows how many are registered.
-/

namespace EventJournal

/-- The gauge of registered subscribers as a log leaves it; nothing before it is first set. -/
def MetricLog.activeSubscriptions (log : MetricLog) : Option Int :=
  log.gauge? ⟨"eventlog_active_subscriptions", []⟩

/-! ## How many are registered -/

theorem Subscriber.registered_tell (subscriber : Subscriber) (news : List LiveMessage) :
    (subscriber.tell news).registered = subscriber.registered := by
  unfold tell
  split <;> rfl

namespace Subscribers

variable {subscribers : Subscribers} {number : Nat} {subscriber subscriber' : Subscriber}

theorem size_eq_count (subscribers : Subscribers) :
    subscribers.size = (subscribers.table.map (·.registered)).count true := by
  simp [size, List.count, List.countP_map, Function.comp_def]

/-- Only who is registered counts. -/
theorem size_congr {other : Subscribers}
    (h : subscribers.table.map (·.registered) = other.table.map (·.registered)) :
    subscribers.size = other.size := by
  rw [size_eq_count, size_eq_count, h]

theorem size_set (hentry : subscribers.table[number]? = some subscriber)
    (same : subscriber'.registered = subscriber.registered) :
    (⟨subscribers.table.set number subscriber'⟩ : Subscribers).size = subscribers.size := by
  obtain ⟨hlt, rfl⟩ := List.getElem?_eq_some_iff.mp hentry
  apply size_congr
  rw [List.map_set, same, ← List.map_set, List.set_getElem_self]

theorem size_map_tell (subscribers : Subscribers) (news : List LiveMessage) :
    (⟨subscribers.table.map (·.tell news)⟩ : Subscribers).size = subscribers.size := by
  apply size_congr
  simp [Function.comp_def, Subscriber.registered_tell]

/-- A dispatch among subscribers who all listen removes nobody and reports nothing. -/
theorem dispatch_reports (h : ∀ entry ∈ subscribers.table, entry.listening = entry.registered)
    (records : List Record) : (subscribers.dispatch records).2 = [] := by
  have htell : subscribers.table.map (·.deliver records)
      = subscribers.table.map (·.tell (records.map .record)) :=
    List.map_congr_left fun entry hmem => Subscriber.deliver_eq_tell (h entry hmem) records
  simp only [dispatch, htell, size_map_tell, if_pos]

/-- Who leaves is not registered any more, and the gauge shows it. -/
theorem unregister_reports (hentry : subscribers.table[number]? = some subscriber)
    (registered : subscriber.registered = true) (left : subscriber'.registered = false) :
    (subscribers.unregister number).2
      = [.activeSubscriptions (⟨subscribers.table.set number subscriber'⟩ : Subscribers).size] := by
  have hregistered : subscribers.isRegistered number = true := by
    simp [isRegistered, hentry, registered]
  simp only [unregister, hregistered, if_pos, gauge, modify_eq_set_of_getElem? hentry]
  congr 2
  apply size_congr
  rw [List.map_set, List.map_set, left]

end Subscribers

/-! ## What an action reports -/

namespace MemoryStore

/-- The samples that a write reports. -/
def Write.samples (write : Write) (store : MemoryStore) : MetricLog :=
  match write with
  | append stream events expected now => (store.append stream now events expected).samples
  | truncate stream before now fresh => (store.truncate stream before now fresh).samples
  | delete stream now fresh => (store.delete stream now fresh).samples
  | clear => store.clear.samples

/-- An append reports nothing, a conflict, or what it appended with the report of its dispatch. -/
theorem appendChecked_samples (store : MemoryStore) (stream : StreamId) (now : Timestamp)
    (events : List Event) (expected : Option StreamVersion) :
    (store.appendChecked stream now events expected).samples = [] ∨
      (store.appendChecked stream now events expected).samples = [.conflict backend] ∨
      ∃ records, (store.appendChecked stream now events expected).samples
        = .appended backend records.length :: (store.subscribers.dispatch records).2 := by
  unfold appendChecked
  split
  · exact .inl rfl
  · split
    · exact .inr (.inl rfl)
    · split
      · exact .inl rfl
      · split
        · exact .inl rfl
        · rw [add_eq]
          exact .inr (.inr ⟨_, rfl⟩)

variable {store : MemoryStore}

theorem appendChecked_quiet
    (h : ∀ entry ∈ store.subscribers.table, entry.listening = entry.registered) (stream : StreamId)
    (now : Timestamp) (events : List Event) (expected : Option StreamVersion) :
    (store.appendChecked stream now events expected).samples.activeSubscriptions = none := by
  rcases store.appendChecked_samples stream now events expected with hs | hs | ⟨records, hs⟩
  · rw [hs]
    rfl
  · rw [hs]
    rfl
  · rw [hs, Subscribers.dispatch_reports h]
    rfl

/-- A write among subscribers who all listen does not touch the gauge. -/
theorem Write.samples_quiet
    (h : ∀ entry ∈ store.subscribers.table, entry.listening = entry.registered) (write : Write) :
    (write.samples store).activeSubscriptions = none := by
  cases write with
  | append stream events expected now =>
    simp only [samples, MemoryStore.append]
    split
    · rfl
    · exact appendChecked_quiet h ..
  | truncate stream before now fresh =>
    simp only [samples, MemoryStore.truncate]
    split
    · rfl
    · split
      · rfl
      · exact @appendChecked_quiet (store.withoutHead stream before) h ..
  | delete stream now fresh =>
    simp only [samples, MemoryStore.delete]
    split
    · rfl
    · split
      · rfl
      · exact @appendChecked_quiet (store.withoutStream stream) h ..
  | clear => rfl

end MemoryStore

theorem PumpMove.active {feed feed' : Feed} {subscriber subscriber' : Subscriber}
    (move : PumpMove feed subscriber feed' subscriber') : feed.pump.ended = false := by
  cases move <;> assumption

/-- A pump reports when it ends that it left, and nothing else. -/
theorem PumpView.samples_of_step {view after : PumpView} {samples : MetricLog}
    (h : view.step = some (after, samples)) :
    samples = if after.pump.ended then (view.subscribers.unregister view.pump.number).2 else [] := by
  have hfinish : ∀ {after : PumpView} {samples : MetricLog}, some view.finish = some (after, samples) →
      samples = if after.pump.ended then (view.subscribers.unregister view.pump.number).2 else [] := by
    rintro after samples h
    cases h
    rfl
  unfold step at h
  split at h
  · cases h
  rename_i hactive
  rw [Bool.not_eq_true] at hactive
  split at h
  · split at h
    · cases h
      simp [hactive]
    · exact hfinish h
    · cases h
  split at h
  · cases h
    simp [Pump.takeUp, hactive]
  split at h
  · exact hfinish h
  split at h
  · cases h
    simp [Pump.receive_frame, hactive]
  · exact hfinish h
  · cases h

namespace Journal

/-- The samples that an action reports. -/
def reports (journal : Journal) : Action → MetricLog
  | .write write => write.samples journal.store
  | .subscribe stream options => (journal.store.subscribe stream options).2.2.2
  | .pump number =>
    match journal.feeds[number]? with
    | none => []
    | some feed =>
      (PumpView.step ⟨feed.pump, feed.channel, journal.store.subscribers⟩).elim [] (·.2)
  | _ => []

/-- The samples that a list of actions reports, in order. -/
def reported (journal : Journal) : List Action → MetricLog
  | [] => []
  | action :: rest => journal.reports action ++ (journal.step action).reported rest

/-! ## The gauge -/

variable {journal : Journal} {number : Nat} {feed : Feed} {subscriber : Subscriber}

/-- A log shows how many are registered, once there was a subscription. -/
def Gauged (journal : Journal) (log : MetricLog) : Prop :=
  log.activeSubscriptions
    = if journal.feeds = [] then none else some (journal.store.subscribers.size : Int)

/-- What an action reports, if anything, is how many are registered after it; and if it reports nothing they
are as many as before. -/
theorem gauge_step (wired : Wired journal) (action : Action) :
    (journal.reports action).activeSubscriptions = none ∧
        (journal.step action).store.subscribers.size = journal.store.subscribers.size ∧
        (journal.step action).feeds.length = journal.feeds.length ∨
      (journal.reports action).activeSubscriptions
          = some ((journal.step action).store.subscribers.size : Int) ∧
        (journal.step action).feeds ≠ [] := by
  cases action with
  | write write =>
    refine .inl ⟨MemoryStore.Write.samples_quiet wired.listening_eq_registered write, ?_, rfl⟩
    rw [← journal.store.subscribers.size_map_tell (write.news journal.store), ← wired.table_write]
  | subscribe stream options => exact .inr ⟨rfl, List.concat_ne_nil _ _⟩
  | pump number =>
    show _ ∧ ((journal.stepPump number).getD journal).store.subscribers.size = _ ∧
        ((journal.stepPump number).getD journal).feeds.length = _ ∨
      _ = some (((journal.stepPump number).getD journal).store.subscribers.size : Int) ∧
        ((journal.stepPump number).getD journal).feeds ≠ []
    cases hfeed : journal.feeds[number]? with
    | none => simp [reports, stepPump, hfeed, MetricLog.activeSubscriptions, MetricLog.gauge?]
    | some feed =>
      obtain ⟨subscriber, hentry, hwired⟩ := wired.entry hfeed
      cases hstep : PumpView.step ⟨feed.pump, feed.channel, journal.store.subscribers⟩ with
      | none =>
        simp [reports, stepPump, hfeed, hstep, MetricLog.activeSubscriptions, MetricLog.gauge?]
      | some result =>
        obtain ⟨view, samples⟩ := result
        have hmoved : journal.stepPump number = some
            { store := { journal.store with subscribers := view.subscribers },
              feeds := journal.feeds.set number ⟨view.channel, view.pump⟩ } := by
          simp [stepPump, hfeed, hstep]
        have hsamples := PumpView.samples_of_step hstep
        obtain ⟨feed', subscriber', move, hafter⟩ :=
          stepPump_cases hfeed hentry hwired.number hmoved
        have hpump : view.pump = feed'.pump := by
          have hfeeds := congrArg (·.feeds[number]?) hafter
          have hlt := (List.getElem?_eq_some_iff.mp hfeed).1
          simp only [update, List.getElem?_set_self hlt, Option.some.injEq] at hfeeds
          exact congrArg Feed.pump hfeeds
        have hregistered : subscriber.registered = true := by
          rw [hwired.registered, move.active]
          rfl
        have hregistered' := (move.wired hwired).registered
        have hreports : journal.reports (.pump number) = samples := by
          simp [reports, hfeed, hstep]
        rw [hreports, hmoved, Option.getD_some, hafter, hsamples, hpump]
        cases hended : feed'.pump.ended with
        | true =>
          -- the pump leaves, and the gauge shows one less
          rw [hended] at hregistered'
          rw [if_pos rfl, hwired.number,
            Subscribers.unregister_reports hentry hregistered hregistered']
          refine .inr ⟨rfl, fun hnil => ?_⟩
          have hlt := (List.getElem?_eq_some_iff.mp hfeed).1
          simp only [update, List.set_eq_nil_iff] at hnil
          rw [hnil] at hlt
          exact absurd hlt (Nat.not_lt_zero number)
        | false =>
          rw [hended] at hregistered'
          rw [if_neg Bool.false_ne_true]
          refine .inl ⟨rfl, ?_, List.length_set ..⟩
          exact Subscribers.size_set hentry (hregistered'.trans hregistered.symm)
  | receive number => exact .inl ⟨rfl, rfl, List.length_modify ..⟩
  | close number => exact .inl ⟨rfl, rfl, List.length_modify ..⟩
  | drop number => exact .inl ⟨rfl, rfl, List.length_modify ..⟩

theorem gauge_run (wired : Wired journal) {log : MetricLog} (gauged : journal.Gauged log)
    (actions : List Action) : (journal.run actions).Gauged (log ++ journal.reported actions) := by
  induction actions generalizing journal log with
  | nil =>
    rw [reported, List.append_nil]
    exact gauged
  | cons action rest ih =>
    rw [reported, ← List.append_assoc]
    refine ih (wired.step action) ?_
    rw [Gauged, MetricLog.activeSubscriptions, MetricLog.gauge?_append]
    rcases gauge_step wired action with ⟨hnone, hsize, hlength⟩ | ⟨hsome, hne⟩
    · -- nothing was reported and nothing changed
      change MetricLog.gauge? _ _ = none at hnone
      change MetricLog.gauge? log _ = _ at gauged
      have hnil : (journal.step action).feeds = [] ↔ journal.feeds = [] := by
        rw [← List.length_eq_zero_iff, hlength, List.length_eq_zero_iff]
      simp only [hnone, Option.none_or, gauged, hsize, hnil]
    · change MetricLog.gauge? _ _ = some _ at hsome
      rw [hsome, if_neg hne, Option.some_or]

end Journal

end EventJournal
