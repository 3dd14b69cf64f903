import EventJournal.Proofs.Feed.Accounts

/-!
# Backlogs that are read after the registration

A subscriber is registered, then its backlog is read, and then its pump gets to work: it delivers the
backlog, and of its queue what the backlog does not cover. The queue and the backlog may overlap by any
number of records, and the backlog may be ahead of all that is announced.

* `Relay.queued`, `Relay.uncovered` — what the queue holds when the pump gets to work, and what of it
  the pump will take up.
* `overlap_dropped` — nothing that is stored when the backlog is read comes from the queue again, if
  nothing was cleared since the registration.
* `replayed_after_clear` — news of a clear makes the pump forget its backlog, and if the backlog was read
  after the clear, all of it comes from the queue once more.
-/

namespace EventJournal

theorem tidings_records (records : List Record) :
    tidings (records.map .record) = records.map .record := by
  refine tidings_of_plain fun message hmessage => ?_
  obtain ⟨record, -, rfl⟩ := List.mem_map.mp hmessage
  rfl

namespace Relay

variable {relay : Relay} {stream : StreamId} {options : SubscribeOptions}

/-- The records of a stream that reach the queue of a subscriber by what happens up to these actions,
when it is registered before them. -/
def queued (relay : Relay) (stream : StreamId) (actions : List Action) : List Record :=
  ((relay.unannounced
      ++ (relay.register stream).history relay.subscribers.table.length actions).filterMap
    LiveMessage.record?).filter stream.concerns

/-- Those records of a queue that come after the backlog and lie beyond the start. -/
def uncovered (backlog : List Record) (stream : StreamId) (start : Position)
    (queued : List Record) : List Record :=
  queued.filter fun record =>
    backlog.getLast?.all (·.sequence < record.sequence) && start.reaches stream record

/-- A subscriber registered on a relay where no clear is left to announce, before anything is removed:
its queue and what is left to announce hold records that are stored, in their order, and the failures
since. -/
theorem Ready.registered (ready : relay.Ready) (stream : StreamId) {actions : List Action}
    (keeps : ∀ action ∈ actions, action.keeps = true) :
    let number := relay.subscribers.table.length
    let after := (relay.register stream).run number actions
    after.Ready ∧
      (∃ records : List Record, relay.unannounced ++ (relay.register stream).history number actions
        = records.map .record ∧ relay.queued stream actions = records.filter stream.concerns) ∧
      (relay.queued stream actions).Sublist after.stored ∧
      ∃ queue, after.subscribers.table[number]? = some ⟨stream, queue, true, true⟩ ∧
        queue.filterMap LiveMessage.error? = actions.flatMap Action.failures ∧
        tidings (after.awaited ⟨stream, queue, true, true⟩)
          = (relay.queued stream actions).map .record := by
  intro number after
  have hregistered : (relay.register stream).Ready :=
    ready.of_announced rfl rfl (List.suffix_refl _)
  obtain ⟨hready, fresh, hhistory, hstored⟩ := hregistered.run number keeps
  obtain ⟨left, hleft, hsublist⟩ := ready.stored
  have hsplit : relay.unannounced ++ (relay.register stream).history number actions
      = (left ++ fresh).map .record := by
    rw [hleft, hhistory, List.map_append]
  have hqueued : relay.queued stream actions = (left ++ fresh).filter stream.concerns := by
    rw [queued, hsplit, Journal.filterMap_record?_map]
  obtain ⟨queue, hentry, hfailures, hawaited⟩ :=
    @entry_run (relay.register stream) number ⟨stream, [], true, true⟩
      List.getElem?_concat_length rfl rfl actions
  refine ⟨hready, ⟨_, hsplit, hqueued⟩, ?_, queue, hentry, hfailures, ?_⟩
  · rw [hqueued, hstored]
    exact List.filter_sublist.trans (hsublist.append (.refl fresh))
  · have hall : (relay.register stream).awaited ⟨stream, [], true, true⟩
          ++ ((relay.register stream).history number actions).filter
            (Subscriber.concerned ⟨stream, [], true, true⟩)
        = (relay.queued stream actions).map .record := by
      rw [awaited, List.nil_append, ← List.filter_append, hqueued]
      exact (congrArg _ hsplit).trans (Subscriber.filter_concerned_records _ _)
    exact hawaited.trans ((congrArg tidings hall).trans (tidings_records _))

/-- What is due when a pump gets to work on its backlog and a queue of records in order. -/
theorem due_outlet (relay : Relay) (number : Nat) (stream : StreamId) (options : SubscribeOptions)
    {queue : List LiveMessage} {records : List Record}
    (hqueue : tidings queue = records.map .record)
    (ordered : records.Pairwise (·.sequence < ·.sequence)) :
    let feed := (relay.outlet number stream options).feed
    let backlog := relay.backlog stream options
    feed.due queue = (backlog ++ uncovered backlog stream options.position records).filter
        (options.admitsType ·.typeName) ∧
      (feed.outlook queue).start = options.position ∧
      ∀ sequence ∈ (feed.outlook queue).delivered,
        ∃ record ∈ backlog ++ records, record.sequence = sequence := by
  intro feed backlog
  obtain ⟨hdue, houtlook⟩ := @Feed.due_congr feed _ _ (hqueue.trans (tidings_records records).symm)
  rw [hdue, houtlook]
  have hdelivered : feed.pump.memory.delivered = backlog.getLast?.map Record.sequence :=
    Option.or_none
  obtain ⟨hstart, hlast⟩ := feed.pump.memory.hearAll_records records
  refine ⟨?_, hstart, ?_⟩
  · have htakes : feed.pump.memory.takes (records.map .record)
        = uncovered backlog stream options.position records := by
      rw [PumpMemory.takes_ordered ordered, uncovered]
      refine List.filter_congr fun record _ => ?_
      rw [PumpMemory.not_isOld_eq, hdelivered, Option.all_map]
      rfl
    show ([] ++ ([] ++ backlog ++ feed.pump.memory.takes _).filter feed.admits) = _
    rw [htakes]
    rfl
  · intro sequence hs
    rcases hlast sequence hs with hbefore | ⟨record, hrecord, rfl⟩
    · rw [hdelivered] at hbefore
      obtain ⟨record, hrecord, rfl⟩ := Option.map_eq_some_iff.mp hbefore
      exact ⟨record, List.mem_append_left _ (List.mem_of_getLast? hrecord), rfl⟩
    · exact ⟨record, List.mem_append_right _ hrecord, rfl⟩

/-- Where the backlog is read nothing is uncovered of what is stored; a subscription that starts after the
last record has no backlog, and all of it is uncovered. -/
theorem Ready.uncovered_eq (ready : relay.Ready) (options : SubscribeOptions) {records : List Record}
    (stored : records.Sublist relay.stored) (concerned : ∀ record ∈ records, stream.concerns record) :
    uncovered (relay.backlog stream options) stream options.position records
      = if options.position.isLast then records else [] := by
  rw [uncovered, backlog_eq, expected_nil]
  by_cases hlast : options.position.isLast = true
  · rw [if_pos hlast, if_pos hlast]
    refine List.filter_eq_self.mpr fun record _ => ?_
    rw [Position.reaches, hlast]
    rfl
  · rw [if_neg hlast, if_neg hlast]
    refine List.filter_eq_nil_iff.mpr fun record hrecord hnew => ?_
    obtain ⟨hafter, hreaches⟩ := Bool.and_eq_true_iff.mp hnew
    rw [Position.reaches, Bool.or_eq_true, or_iff_right hlast] at hreaches
    -- what lies beyond the start is in the backlog, and so not after its last record
    generalize hbacklog : relay.stored.filter (fun record => stream.concerns record &&
      decide (options.position < record.positionIn stream)) = backlog at hafter
    have hmem : record ∈ backlog := by
      rw [← hbacklog]
      refine List.mem_filter.mpr ⟨stored.subset hrecord, ?_⟩
      rw [concerned record hrecord, hreaches]
      rfl
    have hordered : backlog.Pairwise (·.sequence < ·.sequence) := by
      rw [← hbacklog]
      exact ready.ordered.sublist List.filter_sublist
    obtain ⟨last, hlast⟩ : ∃ last, backlog.getLast? = some last :=
      Option.ne_none_iff_exists'.mp fun hnone => by
        rw [List.getLast?_eq_none_iff.mp hnone] at hmem
        cases hmem
    rw [hlast, Option.all_some, decide_eq_true_eq] at hafter
    obtain ⟨earlier, rfl⟩ := List.getLast?_eq_some_iff.mp hlast
    rcases List.mem_append.mp hmem with hearlier | hself
    · have hbefore := (List.pairwise_append.mp hordered).2.2 record hearlier last List.mem_cons_self
      rw [SequenceNumber.lt_iff_toInt] at hbefore hafter
      omega
    · rw [List.mem_singleton.mp hself, SequenceNumber.lt_iff_toInt] at hafter
      omega

/-- A backlog is part of what is stored in its stream. -/
theorem backlog_sublist (relay : Relay) (stream : StreamId) (options : SubscribeOptions) :
    (relay.backlog stream options).Sublist (relay.stored.filter stream.concerns) := by
  rw [backlog_eq, expected_nil]
  split
  · exact List.nil_sublist _
  · exact List.monotone_filter_right _ fun record h => (Bool.and_eq_true_iff.mp h).1

/-- What a subscription gets that starts with the backlog, or after the last record with some news, is what
is expected of the stored records and all news. -/
theorem expected_of_backlog (relay : Relay) (stream : StreamId) (options : SubscribeOptions)
    (records : List Record) (news : List LiveMessage) :
    relay.backlog stream options
        ++ (if options.position.isLast then records.filter stream.concerns else [])
        ++ expected stream options.position [] news
      = expected stream options.position relay.stored
        ((if options.position.isLast then records.map .record else []) ++ news) := by
  rw [expected_split _ _ relay.stored, ← backlog_eq, List.append_assoc]
  congr 1
  by_cases hlast : options.position.isLast = true
  · rw [if_pos hlast, if_pos hlast, expected_records_append, reached,
      Journal.filterMap_record?_map]
    congr 1
    refine List.filter_congr fun record _ => ?_
    rw [Position.reaches, hlast, Bool.true_or, Bool.and_true]
  · rw [if_neg hlast, if_neg hlast]
    rfl

/-! ## When the pump gets to work -/

/-- The subscription of a registered subscriber is attached when its pump gets to work. -/
theorem attached_outlet {number : Nat} {queue : List LiveMessage} {read relay : Relay}
    (hentry : relay.subscribers.table[number]? = some ⟨stream, queue, true, true⟩) :
    Outlet.Attached ⟨relay, (read.outlet number stream options).feed⟩ ⟨stream, queue, true, true⟩ :=
  ⟨hentry, rfl, rfl, rfl, rfl, rfl, nofun, rfl⟩

/-- The accounts of a subscription whose backlog has just been read, when nothing was removed or cleared
since its registration. -/
theorem Ready.accounts_read (ready : relay.Ready) (stream : StreamId) (options : SubscribeOptions)
    {between : List Action} (keeps : ∀ action ∈ between, action.keeps = true) :
    let number := relay.subscribers.table.length
    let read := (relay.register stream).run number between
    (read.outlet number stream options).Accounts
      ⟨stream, options, options.position, read.backlog stream options
        ++ if options.position.isLast then relay.queued stream between else []⟩
      [] (between.flatMap Action.failures) [] [] := by
  intro number read
  obtain ⟨hready, -, hsublist, queue, hentry, hfailures, hawaited⟩ := ready.registered stream keeps
  obtain ⟨hdue, hstart, hdelivered⟩ := read.due_outlet number stream options hawaited
    (hready.ordered.sublist hsublist)
  rw [hready.uncovered_eq options hsublist fun record hrecord => (List.mem_filter.mp hrecord).2]
    at hdue
  have agreed : (read.outlet number stream options).feed.channel.Agreed := nofun
  refine .of_tracks hready.first hready.plain agreed (attached_outlet hentry)
    ⟨rfl, rfl, ⟨hstart, fun sequence hs => ?_⟩, ?_, hfailures⟩
  · -- whatever the pump will have delivered by then is stored
    obtain ⟨record, hrecord, rfl⟩ := hdelivered sequence hs
    refine hready.numbered record ?_
    rcases List.mem_append.mp hrecord with hbacklog | hqueued
    · exact List.mem_of_mem_filter ((read.backlog_sublist stream options).subset hbacklog)
    · exact hsublist.subset hqueued
  · refine hdue.trans (congrArg (List.filter _) ?_)
    show _ = _ ++ expected stream options.position [] []
    rw [expected_nil, List.filter_nil, ite_self, List.append_nil]

/-- The accounts of a subscription on a relay that is cleared before its backlog is read, from the clear
on: the feed is the one that it will be. -/
theorem Ready.accounts_cleared (ready : relay.Ready) (stream : StreamId) (options : SubscribeOptions)
    {earlier : List Action} (keeps : ∀ action ∈ earlier, action.keeps = true) (read : Relay) :
    let number := relay.subscribers.table.length
    let backlog := read.backlog stream options
    Outlet.Accounts
      ⟨((relay.register stream).run number earlier).step number .clear,
        (read.outlet number stream options).feed⟩
      ⟨stream, options, options.position,
        backlog ++ uncovered backlog stream options.position (relay.queued stream earlier)⟩
      [.reset] (earlier.flatMap Action.failures) [] [] := by
  intro number backlog
  obtain ⟨hready, -, hsublist, queue, hentry, hfailures, hawaited⟩ := ready.registered stream keeps
  obtain ⟨hdue, -⟩ := read.due_outlet number stream options hawaited
    (hready.ordered.sublist hsublist)
  have hclear : (((relay.register stream).run number earlier).step number .clear).awaited
        ⟨stream, queue, true, true⟩
      = ((relay.register stream).run number earlier).awaited ⟨stream, queue, true, true⟩
        ++ [.reset] := by
    show queue ++ (_ ++ [.reset]).filter _ = _
    rw [List.filter_append, ← List.append_assoc]
    rfl
  have agreed : (read.outlet number stream options).feed.channel.Agreed := nofun
  refine .of_tracks (Relay.first_step hready.first number .clear)
    (Relay.plain_step hready.plain number .clear) agreed (attached_outlet hentry)
    ⟨rfl, rfl, ?_, ?_, hfailures⟩
  · -- the clear makes the pump forget whatever it will have delivered
    rw [hclear]
    refine ⟨?_, ?_⟩
    · rw [Feed.outlook_append]
      rfl
    · rw [Feed.outlook_append]
      exact nofun
  · rw [hclear, List.nil_append, Feed.due_append]
    refine (List.append_nil _).trans (hdue.trans (congrArg (List.filter _) ?_))
    show _ = backlog ++ uncovered .. ++ expected stream options.position [] [.reset]
    rw [expected_reset_cons]
    exact (List.append_nil _).symm

/-! ## What a subscription gets -/

/-- **The overlap is dropped**: when nothing is removed or cleared between the registration and the
reading of the backlog, a subscription gets the records stored then beyond its start and all that are
appended after that, unless they lie before the start and nothing was cleared yet; one that starts after
the last record gets all that are announced since the registration. Nothing comes twice or out of order,
and every failure since the registration comes as an error. -/
theorem overlap_dropped (relay : Relay) (ready : relay.Ready) (stream : StreamId)
    (options : SubscribeOptions) (between : List Action)
    (keeps : ∀ action ∈ between, action.keeps = true) (after : List Outlet.Action) :
    let number := relay.subscribers.table.length
    let registered := relay.register stream
    let read := registered.run number between
    let outlet := read.outlet number stream options
    let news := (if options.position.isLast then
        relay.unannounced ++ registered.history number between else []) ++ outlet.history after
    let meant := (expected stream options.position read.stored news).filter
      (options.admitsType ·.typeName)
    let failures := between.flatMap Action.failures ++ after.flatMap Outlet.Action.failures
    outlet.Delivers after meant failures := by
  intro number registered read outlet news meant failures
  obtain ⟨-, ⟨records, hrecords, hqueued⟩, -⟩ := ready.registered stream keeps
  have hmeant : Promised.records ⟨stream, options, options.position, read.backlog stream options
      ++ if options.position.isLast then relay.queued stream between else []⟩
        (outlet.history after) = meant := by
    refine congrArg (List.filter _) ?_
    show _ = expected stream options.position read.stored ((if _ then _ else []) ++ _)
    rw [hqueued, hrecords]
    exact expected_of_backlog ..
  rw [← hmeant]
  exact (ready.accounts_read stream options keeps).delivers after

def sampleRecord (name : String) (version sequence : Int64) : Record :=
  ⟨⟨⟨name⟩, "t", .null, .empty⟩, ⟨"s"⟩, ⟨version⟩, ⟨sequence⟩, default⟩

/-- Two records are appended before the backlog is read, of which one is announced, and the listener
fails. -/
def sampleBetween : List Action :=
  [.append [sampleRecord "1" 0 1, sampleRecord "2" 1 2] ⟨3⟩, .announce 1, .fail "lost"]

/-- While the pump is at its backlog the store is written, cleared and written anew; then the listener,
the pump and the consumer do what is left. -/
def sampleAfter : List Outlet.Action :=
  [.pump, .relay (.append [sampleRecord "3" 2 3] ⟨4⟩), .relay .clear,
    .relay (.append [sampleRecord "4" 0 1] ⟨2⟩), .relay (.announce 2), .relay (.announce 1),
    .relay (.announce 1), .pump, .pump, .pump, .pump, .pump, .pump, .receive, .receive, .pump, .pump,
    .pump, .receive, .pump, .receive]

/-- The subscription starts after the first record. -/
def sampleOutlet : Outlet :=
  ((Relay.empty.register ⟨"s"⟩).run 0 sampleBetween).outlet 0 ⟨"s"⟩ ⟨⟨0⟩, none⟩

theorem overlap_dropped_sample :
    Relay.empty.Ready ∧ (∀ action ∈ sampleBetween, action.keeps = true) ∧
      (sampleOutlet.received sampleAfter).map (·.id.name) = ["2", "3", "4"] ∧
      sampleOutlet.received sampleAfter
        = (expected ⟨"s"⟩ ⟨0⟩ sampleOutlet.relay.stored (sampleOutlet.history sampleAfter)).filter
          (admitsType none ·.typeName) ∧
      sampleOutlet.errors sampleAfter = [.notification "lost"] :=
  have keeps : ∀ action ∈ sampleBetween, action.keeps = true := by decide
  have idle : (sampleOutlet.run sampleAfter).Idle := ⟨by decide, by decide, rfl, by decide, by decide⟩
  ⟨.empty, keeps, by decide,
    (overlap_dropped .empty .empty ⟨"s"⟩ ⟨⟨0⟩, none⟩ sampleBetween keeps sampleAfter).all idle⟩

/-- **A backlog read after a clear is replayed**: when the store is cleared between the registration and
the reading of the backlog, a subscription gets the backlog, of the records queued before the first such
clear those the backlog does not cover, and then everything that was appended since that clear, in order.
All that is in the backlog is among that, and so comes twice. -/
theorem replayed_after_clear (relay : Relay) (ready : relay.Ready) (stream : StreamId)
    (options : SubscribeOptions) (earlier : List Action)
    (keeps : ∀ action ∈ earlier, action.keeps = true) (later : List Action)
    (after : List Outlet.Action) :
    let number := relay.subscribers.table.length
    let cleared := ((relay.register stream).run number earlier).step number .clear
    let outlet := (cleared.run number later).outlet number stream options
    let backlog := (cleared.run number later).backlog stream options
    let stale := uncovered backlog stream options.position (relay.queued stream earlier)
    let appended := ((cleared.history number later ++ outlet.history after).filterMap
      LiveMessage.record?).filter stream.concerns
    let meant := (backlog ++ stale ++ appended).filter (options.admitsType ·.typeName)
    let failures := (earlier ++ later).flatMap Action.failures
      ++ after.flatMap Outlet.Action.failures
    backlog.Sublist appended ∧ outlet.Delivers after meant failures := by
  intro number cleared outlet backlog stale appended meant failures
  have accounts := Outlet.accounts_relay
    (ready.accounts_cleared stream options keeps (cleared.run number later)) later
  rw [← List.flatMap_append] at accounts
  have hmeant : Promised.records ⟨stream, options, options.position, backlog ++ stale⟩
      ([.reset] ++ cleared.history number later ++ outlet.history after) = meant :=
    congrArg (List.filter _) (congrArg (backlog ++ stale ++ ·) (expected_reset_cons ..))
  have hreplayed : backlog.Sublist appended := by
    refine (backlog_sublist ..).trans (List.Sublist.filter _ ?_)
    rw [List.filterMap_append]
    exact (cleared.stored_sublist number later).trans (List.sublist_append_left ..)
  rw [← hmeant]
  exact ⟨hreplayed, accounts.delivers after⟩

/-- Two records are appended and announced before the clear, and one after it; all this before the backlog
is read. -/
def sampleEarlier : List Action :=
  [.append [sampleRecord "1" 0 1, sampleRecord "2" 1 2] ⟨3⟩, .announce 2]

def sampleLater : List Action :=
  [.append [sampleRecord "3" 0 1] ⟨2⟩, .announce 1]

def sampleCleared : Relay := ((Relay.empty.register ⟨"s"⟩).run 0 sampleEarlier).step 0 .clear

/-- What is left is announced, and the pump and the consumer do what is left. -/
def sampleDrain : List Outlet.Action :=
  [.relay (.announce 1), .pump, .pump, .pump, .pump, .receive, .pump, .pump, .pump, .receive, .pump,
    .receive]

/-- Of the old records the second is numbered after the backlog. The new one comes from the backlog, and
after the clear from the queue. -/
theorem replayed_after_clear_sample :
    let read := sampleCleared.run 0 sampleLater
    let outlet := read.outlet 0 ⟨"s"⟩ .all
    Relay.empty.Ready ∧ (∀ action ∈ sampleEarlier, action.keeps = true) ∧
      (outlet.received sampleDrain).map (·.id.name) = ["3", "2", "3"] ∧
      outlet.received sampleDrain = (read.backlog ⟨"s"⟩ .all
        ++ uncovered (read.backlog ⟨"s"⟩ .all) ⟨"s"⟩ .start (Relay.empty.queued ⟨"s"⟩ sampleEarlier)
        ++ ((sampleCleared.history 0 sampleLater ++ outlet.history sampleDrain).filterMap
          LiveMessage.record?).filter (StreamId.concerns ⟨"s"⟩)).filter (admitsType none ·.typeName) ∧
      outlet.errors sampleDrain = [] :=
  have keeps : ∀ action ∈ sampleEarlier, action.keeps = true := by decide
  have idle : (((sampleCleared.run 0 sampleLater).outlet 0 ⟨"s"⟩ .all).run sampleDrain).Idle :=
    ⟨by decide, by decide, rfl, by decide, by decide⟩
  ⟨.empty, keeps, by decide,
    (replayed_after_clear .empty .empty ⟨"s"⟩ .all sampleEarlier keeps sampleLater sampleDrain).2.all
      idle⟩

end Relay

end EventJournal
