import EventJournal.Store.Memory

/-!
# How a batch is numbered

The records of a batch get the versions after that of the stream and the sequence numbers from the
next one on, in the order of the batch. `plus` is the word so many places later; below the greatest
word it adds as integers do.

Main statement: `recordBatch_eq`, a batch as a map over its events with their places.
-/

namespace EventJournal

/-- Below the greatest word, counting on from a word adds as integers do. -/
theorem toInt_add_ofNat {word : Int64} {count : Nat}
    (h : word.toInt + count ≤ Int64.maxValue.toInt) :
    (word + Int64.ofNat count).toInt = word.toInt + count := by
  have low := word.le_toInt
  have high : Int64.maxValue.toInt = 9223372036854775807 := by decide
  have size : (Int64.size : Int) = 18446744073709551616 := by decide
  rw [Int64.toInt_add, Int64.toInt_ofNat']
  refine Int.add_bmod_bmod.trans ?_
  apply Int.bmod_eq_of_le <;> omega

namespace StreamVersion

/-- The version so many places later. -/
def plus (version : StreamVersion) (count : Nat) : StreamVersion :=
  ⟨version.value + Int64.ofNat count⟩

theorem plus_zero (version : StreamVersion) : version.plus 0 = version := by
  simp [plus]

theorem plus_succ (version : StreamVersion) (count : Nat) :
    version.plus (count + 1) = version.next.plus count := by
  simp only [plus, next, Int64.ofNat_add, Int64.add_assoc]
  rw [Int64.add_comm (Int64.ofNat count)]
  rfl

theorem toInt_plus {version : StreamVersion} {count : Nat}
    (h : version.toInt + count ≤ Int64.maxValue.toInt) :
    (version.plus count).toInt = version.toInt + count :=
  toInt_add_ofNat h

end StreamVersion

namespace SequenceNumber

/-- The sequence number so many places later. -/
def plus (sequence : SequenceNumber) (count : Nat) : SequenceNumber :=
  ⟨sequence.value + Int64.ofNat count⟩

theorem plus_zero (sequence : SequenceNumber) : sequence.plus 0 = sequence := by
  simp [plus]

theorem plus_succ (sequence : SequenceNumber) (count : Nat) :
    sequence.plus (count + 1) = sequence.next.plus count := by
  simp only [plus, next, Int64.ofNat_add, Int64.add_assoc]
  rw [Int64.add_comm (Int64.ofNat count)]
  rfl

theorem toInt_plus {sequence : SequenceNumber} {count : Nat}
    (h : sequence.toInt + count ≤ Int64.maxValue.toInt) :
    (sequence.plus count).toInt = sequence.toInt + count :=
  toInt_add_ofNat h

end SequenceNumber

namespace MemoryStore

/-- The records that a batch becomes when it is appended to a stream. -/
def batch (store : MemoryStore) (stream : StreamId) (now : Timestamp) (events : List Event) :
    List Record :=
  events.mapIdx fun place event =>
    { event, stream, version := (store.versionOf stream).plus (place + 1),
      sequence := store.nextSequence.plus place, recordedAt := now }

theorem recordBatch_eq (stream : StreamId) (now : Timestamp) (events : List Event)
    (version : StreamVersion) (sequence : SequenceNumber) :
    recordBatch stream now events version sequence =
      (events.mapIdx fun place event =>
        { event, stream, version := version.plus (place + 1), sequence := sequence.plus place,
          recordedAt := now },
        version.plus events.length, sequence.plus events.length) := by
  induction events generalizing version sequence with
  | nil => simp [recordBatch, StreamVersion.plus_zero, SequenceNumber.plus_zero]
  | cons event rest ih =>
    simp only [recordBatch, ih, List.mapIdx_cons, List.length_cons, StreamVersion.plus_succ,
      SequenceNumber.plus_succ, StreamVersion.plus_zero, SequenceNumber.plus_zero]

end MemoryStore

end EventJournal
