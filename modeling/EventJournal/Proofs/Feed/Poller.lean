import EventJournal.Feed.Poller
import EventJournal.Proofs.Feed.Wired

/-!
# What a step of a poller can do

`Poller.Move` has one constructor for everything a poller can do in a step, whatever its client answers;
`Poller.move_of_step` is the inversion that all invariants of pollers start from.
-/

namespace EventJournal

variable {σ : Type}

/-- The moves of a poller, given the client it reads through and the state of the client. -/
inductive Poller.Move (client : LogClient σ) (state : σ) : Poller → Poller → σ → Prop where
  /-- The end of the stream is found. -/
  | located {channel : Channel} {position : Position} {state' : σ}
      (head : LogServer.headPosition client channel.stream state = (.ok position, state')) :
      Move client state ⟨.locating, channel⟩ ⟨.reading position, channel⟩ state'
  /-- The end of the stream cannot be found. -/
  | lost {channel : Channel} {error : StoreError} {state' : σ}
      (head : LogServer.headPosition client channel.stream state = (.error error, state')) :
      Move client state ⟨.locating, channel⟩ ⟨.givingUp error, channel⟩ state'
  /-- That is reported, and the poller ends. -/
  | gaveUp {channel : Channel} {error : StoreError} (isOpen : channel.isClosed = false)
      (room : channel.error = none) :
      Move client state ⟨.givingUp error, channel⟩
        ⟨.ended, { channel with error := some error, sinkGone := true }⟩ state
  /-- What lies beyond the cursor is read. -/
  | fetched {channel : Channel} {cursor : Position} {records : Option (List Record)} {state' : σ}
      (read : LogServer.readRecords client channel.stream (.forward cursor) state
        = (.ok records, state')) :
      Move client state ⟨.reading cursor, channel⟩ ⟨.delivering cursor (records.getD []), channel⟩
        state'
  /-- It cannot be read. -/
  | failed {channel : Channel} {cursor : Position} {error : StoreError} {state' : σ}
      (read : LogServer.readRecords client channel.stream (.forward cursor) state
        = (.error error, state')) :
      Move client state ⟨.reading cursor, channel⟩ ⟨.failing cursor error, channel⟩ state'
  /-- That is reported. -/
  | reported {channel : Channel} {cursor : Position} {error : StoreError} {due : Nat}
      (isOpen : channel.isClosed = false) (room : channel.error = none) :
      Move client state ⟨.failing cursor error, channel⟩
        ⟨.resting cursor due, { channel with error := some error }⟩ state
  /-- A record is delivered. -/
  | delivered {channel : Channel} {cursor : Position} {record : Record} {rest : List Record}
      (isOpen : channel.isClosed = false) (room : channel.record = none)
      (admitted : channel.options.admitsType record.typeName = true) :
      Move client state ⟨.delivering cursor (record :: rest), channel⟩
        ⟨.delivering (record.positionIn channel.stream) rest, { channel with record := some record }⟩
        state
  /-- A record is left out by the filter. -/
  | skipped {channel : Channel} {cursor : Position} {record : Record} {rest : List Record}
      (isOpen : channel.isClosed = false)
      (rejected : channel.options.admitsType record.typeName = false) :
      Move client state ⟨.delivering cursor (record :: rest), channel⟩
        ⟨.delivering (record.positionIn channel.stream) rest, channel⟩ state
  /-- All that was read is delivered. -/
  | rested {channel : Channel} {cursor : Position} {due : Nat} :
      Move client state ⟨.delivering cursor [], channel⟩ ⟨.resting cursor due, channel⟩ state
  /-- The next poll is due. -/
  | resumed {channel : Channel} {cursor : Position} {due : Nat}
      (isOpen : channel.isClosed = false) :
      Move client state ⟨.resting cursor due, channel⟩ ⟨.reading cursor, channel⟩ state
  /-- The poller notices that the subscription is closed, and ends. -/
  | closed {phase : PollPhase} {channel : Channel} (isClosed : channel.isClosed = true) :
      Move client state ⟨phase, channel⟩ ⟨.ended, channel.dropSink⟩ state

/-- A step of a poller is one of its moves. -/
theorem Poller.move_of_step {client : LogClient σ} {now : Nat} {poller poller' : Poller}
    {state state' : σ} (h : poller.step client now state = some (poller', state')) :
    Move client state poller poller' state' := by
  obtain ⟨phase, channel⟩ := poller
  cases phase with
  | locating =>
    simp only [step] at h
    split at h
    · rename_i position after hhead
      cases h
      exact .located hhead
    · rename_i error after hhead
      cases h
      exact .lost hhead
  | givingUp error =>
    simp only [step] at h
    split at h
    · rename_i after hfail
      obtain ⟨hopen, hroom, rfl⟩ := Channel.fail_accepted hfail
      cases h
      exact .gaveUp hopen hroom
    · rename_i after hfail
      cases h
      exact .closed (Channel.fail_refused hfail)
    · cases h
  | reading cursor =>
    simp only [step] at h
    split at h
    · rename_i records after hread
      cases h
      exact .fetched hread
    · rename_i error after hread
      cases h
      exact .failed hread
  | delivering cursor records =>
    cases records with
    | nil =>
      cases h
      exact .rested
    | cons record rest =>
      simp only [step] at h
      split at h
      · rename_i after hoffer
        obtain ⟨hopen, ⟨hrejected, rfl⟩ | ⟨hadmitted, hroom, rfl⟩⟩ := Channel.offer_accepted hoffer
        · cases h
          exact .skipped hopen hrejected
        · cases h
          exact .delivered hopen hroom hadmitted
      · rename_i after hoffer
        cases h
        exact .closed (Channel.offer_refused hoffer)
      · cases h
  | failing cursor error =>
    simp only [step] at h
    split at h
    · rename_i after hfail
      obtain ⟨hopen, hroom, rfl⟩ := Channel.fail_accepted hfail
      cases h
      exact .reported hopen hroom
    · rename_i after hfail
      cases h
      exact .closed (Channel.fail_refused hfail)
    · cases h
  | resting cursor due =>
    simp only [step] at h
    split at h
    · rename_i hclosed
      cases h
      exact .closed hclosed
    · rename_i hopen
      split at h
      · cases h
        exact .resumed (Bool.eq_false_iff.mpr hopen)
      · cases h
  | ended => cases h

namespace Poller.Move

variable {client : LogClient σ} {state state' : σ} {poller poller' : Poller}

/-- A poller looks for the end of the stream only at its beginning. -/
theorem ne_locating (move : Move client state poller poller' state') : poller'.phase ≠ .locating := by
  cases move <;> nofun

theorem isClosed_eq (move : Move client state poller poller' state') :
    poller'.channel.isClosed = poller.channel.isClosed := by
  cases move <;> rfl

/-- A poller that looked for the end of the stream reads on from what it found. -/
theorem found (move : Move client state poller poller' state') (locating : poller.phase = .locating)
    {position : Position} (reading : poller'.phase = .reading position) :
    poller'.channel = poller.channel ∧
      LogServer.headPosition client poller.channel.stream state = (.ok position, state') := by
  cases move with
  | located head =>
    cases reading
    exact ⟨rfl, head⟩
  | resumed => cases locating
  | _ => cases reading

end Poller.Move

end EventJournal
