import EventJournal.Proofs.Feed.Poller
import EventJournal.Proofs.LogServer.Agreement
import EventJournal.Proofs.Process.WakeUp

/-!
# How far a poller gets

A poller of a subscription to new records finds out where the stream ends, then reads beyond its cursor
again and again and delivers what it read. Whatever others append meanwhile lies beyond all that it has
reached, so it comes by every record that was appended after it found the end.

* `PollMove` and `Poller.step_cases` — what a step of a poller can do when nothing fails.
* `Poller.Follows` and `PollMove.follows` — a poller never lies beyond the store, and a poll takes it
  past all that is stored.
* `Poller.Sees` and `PollMove.sees` — a record that was appended after the end was found is delivered,
  or will be.
* `Exhausted.move` — a poller with nothing to read stays where it is.
-/

namespace EventJournal

/-! ## Pollers -/

/-- A step of a poller of an open channel when the server answers. -/
inductive PollMove (server : LogModel) : Poller → Poller → Prop where
  /-- The end of the stream is found. -/
  | located {channel : Channel} {position : Position}
      (head : LogServer.headPosition LogModel.client channel.stream server
        = (.ok position, server)) :
      PollMove server ⟨.locating, channel⟩ ⟨.reading position, channel⟩
  /-- What lies beyond the cursor is read. -/
  | fetched {channel : Channel} {cursor : Position} {records : Option (List Record)}
      (read : LogServer.readRecords LogModel.client channel.stream (.forward cursor) server
        = (.ok records, server)) :
      PollMove server ⟨.reading cursor, channel⟩ ⟨.delivering cursor (records.getD []), channel⟩
  /-- A record is delivered. -/
  | delivered {channel : Channel} {cursor : Position} {record : Record} {rest : List Record}
      (room : channel.record = none) :
      PollMove server ⟨.delivering cursor (record :: rest), channel⟩
        ⟨.delivering (record.positionIn channel.stream) rest, { channel with record := some record }⟩
  /-- A record is left out by the filter. -/
  | skipped {channel : Channel} {cursor : Position} {record : Record} {rest : List Record}
      (rejected : channel.options.admitsType record.typeName = false) :
      PollMove server ⟨.delivering cursor (record :: rest), channel⟩
        ⟨.delivering (record.positionIn channel.stream) rest, channel⟩
  /-- All that was read is delivered. -/
  | rested {channel : Channel} {cursor : Position} {due : Nat} :
      PollMove server ⟨.delivering cursor [], channel⟩ ⟨.resting cursor due, channel⟩
  /-- The next poll is due. -/
  | resumed {channel : Channel} {cursor : Position} {due : Nat} :
      PollMove server ⟨.resting cursor due, channel⟩ ⟨.reading cursor, channel⟩

/-- Nothing failed so far. -/
def PollPhase.Undisturbed : PollPhase → Prop
  | locating | reading _ | delivering _ _ | resting _ _ => True
  | _ => False

namespace Poller

/-- Finding the end of a stream changes nothing and does not fail. -/
theorem headPosition_ok (stream : StreamId) (server : LogModel) :
    ∃ position, LogServer.headPosition LogModel.client stream server = (.ok position, server) := by
  rw [LogServer.headPosition, readRecords_eq]
  exact ⟨_, rfl⟩

/-- A poller only reads. -/
theorem step_state {now : Nat} {poller poller' : Poller} {server server' : LogModel}
    (h : poller.step LogModel.client now server = some (poller', server')) : server' = server := by
  cases move_of_step h with
  | @located channel position _ head =>
    obtain ⟨found, hfound⟩ := headPosition_ok channel.stream server
    cases hfound.symm.trans head
    rfl
  | @lost channel error _ head =>
    obtain ⟨found, hfound⟩ := headPosition_ok channel.stream server
    cases hfound.symm.trans head
  | @fetched channel cursor records _ read =>
    cases (readRecords_eq channel.stream (.forward cursor) server).symm.trans read
    rfl
  | @failed channel cursor error _ read =>
    cases (readRecords_eq channel.stream (.forward cursor) server).symm.trans read
  | gaveUp | reported | delivered | skipped | rested | resumed | closed => rfl

/-- A step of a poller of an open channel is one of its moves. -/
theorem step_cases {now : Nat} {poller poller' : Poller} {server server' : LogModel}
    (isOpen : poller.channel.isClosed = false) (undisturbed : poller.phase.Undisturbed)
    (h : poller.step LogModel.client now server = some (poller', server')) :
    PollMove server poller poller' := by
  obtain rfl := step_state h
  cases move_of_step h with
  | located head => exact .located head
  | @lost channel error _ head =>
    obtain ⟨found, hfound⟩ := headPosition_ok channel.stream server'
    cases hfound.symm.trans head
  | fetched read => exact .fetched read
  | @failed channel cursor error _ read =>
    cases (readRecords_eq channel.stream (.forward cursor) server').symm.trans read
  | delivered _ room _ => exact .delivered room
  | skipped _ rejected => exact .skipped rejected
  | rested => exact .rested
  | resumed _ => exact .resumed
  | gaveUp _ _ => exact undisturbed.elim
  | reported _ _ => exact undisturbed.elim
  | closed isClosed => exact Bool.noConfusion (isOpen.symm.trans isClosed)

/-- The position that a poller will have come to when it has delivered what it read; none as long as it
does not know where the stream ends. -/
def reach (poller : Poller) : Option Position :=
  match poller.phase with
  | .reading cursor | .resting cursor _ | .failing cursor _ => some cursor
  | .delivering cursor records =>
    some ((records.getLast?.map (·.positionIn poller.channel.stream)).getD cursor)
  | _ => none

/-- The records that were read for a run and that it has not received. -/
def due (poller : Poller) : List Record :=
  poller.channel.record.toList ++ match poller.phase with
    | .delivering _ records => records
    | _ => []

/-- The last commit position at which the end was found, taken down at a step. -/
def locatedAt (poller : Poller) (commit located : Nat) : Nat :=
  match poller.phase with
  | .locating => commit
  | _ => located

/-- The last commit position of the last poll, taken down at a step. -/
def polledAt (poller : Poller) (commit polled : Nat) : Nat :=
  match poller.phase with
  | .reading _ => commit
  | _ => polled

end Poller

/-! ## What a poller reads -/

theorem Record.positionIn_of_untimed {a b : Record} (h : a.untimed = b.untimed) (stream : StreamId) :
    a.positionIn stream = b.positionIn stream := by
  have hposition := congrArg (·.positionIn stream) h
  exact hposition

theorem Record.typeName_of_untimed {a b : Record} (h : a.untimed = b.untimed) :
    a.typeName = b.typeName := by
  have htype := congrArg Record.typeName h
  exact htype

/-- The last position among records does not depend on their times. -/
theorem last_position_congr {records records' : List Record} (stream : StreamId)
    (same : records.map Record.untimed = records'.map Record.untimed) :
    records.getLast?.map (·.positionIn stream) = records'.getLast?.map (·.positionIn stream) := by
  have huntimed (records : List Record) : records.getLast?.map (·.positionIn stream)
      = ((records.map Record.untimed).getLast?).map (·.positionIn stream) := by
    rw [List.getLast?_map, Option.map_map]
    rfl
  rw [huntimed records, huntimed records', same]

section

variable {store : MemoryStore} {server : LogModel}

/-- The end of a stream is a position that was given out, or the start. -/
theorem Agrees.head_reached (agrees : Agrees store server) (sound : store.Sound) {stream : StreamId}
    {position : Position}
    (h : LogServer.headPosition LogModel.client stream server = (.ok position, server)) :
    position.toInt ≤ store.horizon stream := by
  have hstart : Position.start.toInt ≤ store.horizon stream := by
    rw [Position.toInt_start]
    exact sound.start_le_horizon stream
  rw [LogServer.headPosition, readRecords_eq] at h
  rcases agrees.readable stream with ⟨-, hreadable⟩ | ⟨-, others, hreadable, twins⟩
  · rw [hreadable] at h
    cases h
    exact hstart
  · simp only [hreadable, Option.map_some, Option.bind_some, Except.map,
      LogModel.select_last (twins.below sound), head?_map_take, List.head?_reverse] at h
    rcases twins.getLast? with ⟨-, hnone⟩ | ⟨last, other, hlast, hother, twin⟩
    · rw [hnone] at h
      cases h
      exact hstart
    · rw [hother] at h
      cases h
      show (other.toRecord.positionIn stream).toInt ≤ _
      rw [Record.positionIn_of_untimed twin.untimed]
      exact sound.reached (List.mem_of_getLast? hlast)

/-- A poll gives the stored records beyond its cursor, in order. -/
theorem Agrees.poll (agrees : Agrees store server) (sound : store.Sound) {stream : StreamId}
    {cursor : Position} {records : Option (List Record)}
    (h : LogServer.readRecords LogModel.client stream (.forward cursor) server
      = (.ok records, server)) :
    (records.getD []).map Record.untimed
      = ((store.readable stream).filter fun record =>
          cursor < record.positionIn stream).map Record.untimed := by
  rw [readRecords_eq] at h
  rcases agrees.readable stream with ⟨hmissing, hreadable⟩ | ⟨-, others, hreadable, twins⟩
  · rw [hreadable] at h
    cases h
    rw [sound.readable_of_missing hmissing]
    rfl
  · rw [hreadable] at h
    cases h
    exact (twins.beyond stream { ReadOptions.forward with position := cursor }).untimed

end

/-! ## What a poller has seen -/

namespace Poller

/-- A poller that serves a run and came as far as the store, of which `polled` records were committed at
its last poll. -/
structure Follows (poller : Poller) (config : ProcessorConfig) (store : MemoryStore) (polled : Nat) :
    Prop where
  isOpen : poller.channel.isClosed = false
  sink : poller.channel.sinkGone = false
  sameStream : poller.channel.stream = config.stream
  sameOptions : poller.channel.options = config.wakeUps
  undisturbed : poller.phase.Undisturbed
  early : poller.reach = none → polled = 0
  reached : ∀ reach ∈ poller.reach, reach.toInt ≤ store.horizon config.stream
  polled : ∀ reach ∈ poller.reach, ∀ record ∈ store.readable config.stream,
    record.sequence.toInt ≤ polled → record.positionIn config.stream ≤ reach

/-- A poller lets its run know of a record: it did not find the end yet, or found it before the record
was appended and will deliver the record or is about to. -/
def Sees (poller : Poller) (stream : StreamId) (located : Nat) (record : Record) : Prop :=
  ∀ reach ∈ poller.reach, record.sequence.toInt ≤ located ∨ reach < record.positionIn stream ∨
    record.untimed ∈ poller.due.map Record.untimed

/-- A poller whose channel stays open and that comes no further goes on following. -/
theorem Follows.of_reach {poller poller' : Poller} {config : ProcessorConfig} {store : MemoryStore}
    {polled : Nat} (h : poller.Follows config store polled)
    (later : poller.channel.Later poller'.channel) (isOpen : poller'.channel.isClosed = false)
    (undisturbed : poller'.phase.Undisturbed) (same : poller'.reach = poller.reach) :
    poller'.Follows config store polled where
  isOpen := isOpen
  sink := later.sink.trans h.sink
  sameStream := later.stream.trans h.sameStream
  sameOptions := later.options.trans h.sameOptions
  undisturbed := undisturbed
  early := by
    rw [same]
    exact h.early
  reached := by
    rw [same]
    exact h.reached
  polled := by
    rw [same]
    exact h.polled

/-- A poller goes on following when the store goes onward. -/
theorem Follows.onward {poller : Poller} {config : ProcessorConfig} {store store' : MemoryStore}
    {polled : Nat} (h : poller.Follows config store polled)
    (onward : MemoryStore.Onward config.stream store store') (known : polled < store.nextSequence.toInt) :
    poller.Follows config store' polled where
  isOpen := h.isOpen
  sink := h.sink
  sameStream := h.sameStream
  sameOptions := h.sameOptions
  undisturbed := h.undisturbed
  early := h.early
  reached reach hreach := Int.le_trans (h.reached reach hreach) onward.horizon
  polled reach hreach record hrecord hle := by
    rcases onward.fresh record hrecord with hold | ⟨-, hfresh⟩
    · exact h.polled reach hreach record hold hle
    · omega

/-- Delivering a record does not change how far a poller will have come. -/
theorem reach_delivering (cursor : Position) (record : Record) (rest : List Record)
    (channel : Channel) :
    reach ⟨.delivering (record.positionIn channel.stream) rest, channel⟩
      = reach ⟨.delivering cursor (record :: rest), channel⟩ :=
  congrArg some (PassAction.getLast?_cons_position channel.stream record rest cursor).symm

end Poller

section

variable {config : ProcessorConfig} {store : MemoryStore} {server : LogModel}
  {poller poller' : Poller} {polled located : Nat}

/-- A poll comes as far as the store, and no further. -/
theorem Agrees.poll_reach (agrees : Agrees store server) (sound : store.Sound) {stream : StreamId}
    {cursor : Position} {records : Option (List Record)}
    (h : LogServer.readRecords LogModel.client stream (.forward cursor) server
      = (.ok records, server)) (reached : cursor.toInt ≤ store.horizon stream) :
    let reach := ((records.getD []).getLast?.map (·.positionIn stream)).getD cursor
    reach.toInt ≤ store.horizon stream ∧
      ∀ record ∈ store.readable stream, record.positionIn stream ≤ reach := by
  dsimp only
  rw [last_position_congr stream (agrees.poll sound h)]
  constructor
  · cases hlast : ((store.readable stream).filter fun record =>
        cursor < record.positionIn stream).getLast? with
    | none => exact reached
    | some last => exact sound.reached (List.mem_filter.mp (List.mem_of_getLast? hlast)).1
  · intro record hrecord
    by_cases hbeyond : cursor < record.positionIn stream
    · have hordered := (sound.readable_ordered stream).imp Std.le_of_lt
      exact le_last_position (hordered.sublist List.filter_sublist) cursor
        (List.mem_filter.mpr ⟨hrecord, decide_eq_true hbeyond⟩)
    · -- a record that was not read lies at or below the cursor, and the last one read beyond it
      have hbeyonds : ∀ other ∈ (store.readable stream).filter fun record =>
          cursor < record.positionIn stream, cursor < other.positionIn stream :=
        fun other hother => of_decide_eq_true (List.mem_filter.mp hother).2
      exact Std.le_trans (Std.not_lt.mp hbeyond) (position_le_last hbeyonds)

/-- A poller goes on following whatever step it takes. -/
theorem PollMove.follows (move : PollMove server poller poller') (sound : store.Sound)
    (agrees : Agrees store server) (h : poller.Follows config store polled) :
    poller'.Follows config store (poller.polledAt server.lastCommit polled) := by
  cases move with
  | @located channel position head =>
    have hstream : channel.stream = config.stream := h.sameStream
    rw [hstream] at head
    have hpolled : polled = 0 := h.early rfl
    refine ⟨h.isOpen, h.sink, hstream, h.sameOptions, trivial, nofun, ?_, ?_⟩
    · rintro _ ⟨⟩
      exact agrees.head_reached sound head
    · -- nothing was polled yet
      intro reach _ record hrecord hle
      change _ ≤ (polled : Int) at hle
      have hfirst := (sound.numbered record (MemoryStore.mem_readable.mp hrecord).1).1
      omega
  | @fetched channel cursor records read =>
    have hstream : channel.stream = config.stream := h.sameStream
    rw [hstream] at read
    obtain ⟨hreached, hall⟩ := agrees.poll_reach sound read (h.reached cursor rfl)
    refine ⟨h.isOpen, h.sink, hstream, h.sameOptions, trivial, nofun, ?_, ?_⟩
    · rintro _ ⟨⟩
      rw [hstream]
      exact hreached
    · rintro _ ⟨⟩ record hrecord -
      rw [hstream]
      exact hall record hrecord
  | @delivered channel cursor record rest room =>
    exact h.of_reach ⟨rfl, rfl, rfl, id⟩ h.isOpen trivial
      (Poller.reach_delivering cursor record rest channel)
  | @skipped channel cursor record rest rejected =>
    exact h.of_reach (.refl _) h.isOpen trivial
      (Poller.reach_delivering cursor record rest channel)
  | rested => exact h.of_reach (.refl _) h.isOpen trivial rfl
  | resumed => exact h.of_reach (.refl _) h.isOpen trivial rfl

/-- A poller goes on to let its run know of a stored record that the run is to handle. -/
theorem PollMove.sees (move : PollMove server poller poller') (sound : store.Sound)
    (agrees : Agrees store server) (h : poller.Follows config store polled) {record : Record}
    (hrecord : record ∈ store.readable config.stream)
    (admits : admitsType config.filter record.typeName = true)
    (sees : poller.Sees config.stream located record) :
    poller'.Sees config.stream (poller.locatedAt server.lastCommit located) record := by
  cases move with
  | @located channel position head =>
    -- what is stored now was appended before the end was found
    rintro reach -
    have hlast := (sound.numbered record (MemoryStore.mem_readable.mp hrecord).1).2
    have hcommit := agrees.commit
    rw [SequenceNumber.lt_iff_toInt] at hlast
    left
    show _ ≤ ((server.lastCommit : Nat) : Int)
    omega
  | @fetched channel cursor records read =>
    rintro reach -
    have hstream : channel.stream = config.stream := h.sameStream
    rw [hstream] at read
    rcases sees cursor rfl with hearly | hbeyond | hdue
    · exact .inl hearly
    · have hread := agrees.poll sound read
      refine .inr (.inr ?_)
      show _ ∈ List.map _ (_ ++ _)
      rw [List.map_append, hread]
      exact List.mem_append_right _
        (List.mem_map_of_mem (List.mem_filter.mpr ⟨hrecord, decide_eq_true hbeyond⟩))
    · refine .inr (.inr ?_)
      obtain ⟨other, hother, hsame⟩ := List.mem_map.mp hdue
      change other ∈ _ ++ [] at hother
      rw [List.append_nil] at hother
      exact List.mem_map.mpr ⟨other, List.mem_append_left _ hother, hsame⟩
  | @delivered channel cursor first rest room =>
    intro reach hreach
    have hdue := sees reach ((Poller.reach_delivering cursor first rest channel).symm.trans hreach)
    change _ ∨ _ ∨ _ ∈ List.map _ (channel.record.toList ++ first :: rest) at hdue
    rw [room] at hdue
    exact hdue
  | @skipped channel cursor first rest rejected =>
    intro reach hreach
    rcases sees reach ((Poller.reach_delivering cursor first rest channel).symm.trans hreach) with
      hearly | hbeyond | hdue
    · exact .inl hearly
    · exact .inr (.inl hbeyond)
    · refine .inr (.inr ?_)
      obtain ⟨other, hother, hsame⟩ := List.mem_map.mp hdue
      have hne : other ≠ first := by
        rintro rfl
        have hoptions : channel.options = config.wakeUps := h.sameOptions
        rw [Record.typeName_of_untimed hsame, hoptions] at rejected
        exact Bool.false_ne_true (rejected.symm.trans admits)
      refine List.mem_map.mpr ⟨other, ?_, hsame⟩
      rcases List.mem_append.mp hother with hwaiting | hread
      · exact List.mem_append_left _ hwaiting
      · exact List.mem_append_right _ ((List.mem_cons.mp hread).resolve_left hne)
  | rested => exact sees
  | resumed => exact sees

end

/-! ## Nothing to read -/

/-- A poll from a cursor gives nothing. -/
def NothingBeyond (stream : StreamId) (server : LogModel) (cursor : Position) : Prop :=
  ∃ records, LogServer.readRecords LogModel.client stream (.forward cursor) server
    = (.ok records, server) ∧ records.getD [] = []

/-- A poller with nothing to deliver and nothing to read. -/
inductive Exhausted (stream : StreamId) (server : LogModel) : PollPhase → Prop where
  | reading {cursor : Position} (nothing : NothingBeyond stream server cursor) :
      Exhausted stream server (.reading cursor)
  | delivering {cursor : Position} (nothing : NothingBeyond stream server cursor) :
      Exhausted stream server (.delivering cursor [])
  | resting {cursor : Position} {due : Nat} (nothing : NothingBeyond stream server cursor) :
      Exhausted stream server (.resting cursor due)

theorem Exhausted.undisturbed {stream : StreamId} {server : LogModel} {phase : PollPhase}
    (h : Exhausted stream server phase) : phase.Undisturbed := by
  cases h <;> trivial

/-- An exhausted poller stays so and delivers nothing. -/
theorem Exhausted.move {server : LogModel} {poller poller' : Poller}
    (h : Exhausted poller.channel.stream server poller.phase) (move : PollMove server poller poller') :
    Exhausted poller.channel.stream server poller'.phase ∧ poller'.channel = poller.channel := by
  cases move with
  | located head => cases h
  | fetched read =>
    cases h with
    | reading nothing =>
      have hnothing := nothing
      obtain ⟨records, hread, hempty⟩ := hnothing
      cases hread.symm.trans read
      rw [hempty]
      exact ⟨.delivering nothing, rfl⟩
  | delivered room => cases h
  | skipped rejected => cases h
  | rested =>
    cases h with
    | delivering nothing => exact ⟨.resting nothing, rfl⟩
  | resumed =>
    cases h with
    | resting nothing => exact ⟨.reading nothing, rfl⟩

end EventJournal
