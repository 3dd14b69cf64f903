import EventJournal.LogServer.Adapter
import EventJournal.LogServer.Model
import EventJournal.Proofs.Store.Soundness
import Mathlib.Data.List.Forall2

/-!
# The same journal in memory and on a log server

A store in memory keeps signed versions and the version of every stream; a log server keeps unsigned
revisions and the next revision of every stream. `Agrees` says that both hold the same records in the
same order (`Twin`), know the same streams and have the same ids in use.

* `Agrees.withoutHead`, `Agrees.withoutStream`, `Agrees.add` — what removes and what appends keeps the
  two in agreement.
* `Agrees.meets_iff` and `Agrees.find?_eq` — both decide an append alike.
-/

namespace EventJournal

/-! ## Words -/

/-- A signed word read as an unsigned one. -/
theorem toNat_toUInt64 (word : Int64) :
    (word.toUInt64.toNat : Int)
      = if 0 ≤ word.toInt then word.toInt else word.toInt + 18446744073709551616 := by
  have hcond := BitVec.toInt_eq_toNat_cond word.toBitVec
  have hbound := word.toBitVec.isLt
  have hword : word.toInt = word.toBitVec.toInt := rfl
  have hcode : word.toUInt64.toNat = word.toBitVec.toNat := rfl
  rw [hword, hcode]
  split at hcond <;> split <;> omega

/-- An unsigned word stands for the signed one of the same value. -/
theorem toInt64_eq {word : Int64} {code : UInt64} (h : word.toInt = code.toNat) :
    code.toInt64 = word := by
  have hword := toNat_toUInt64 word
  have hcode : word.toUInt64 = code := by
    refine UInt64.toNat_inj.mp ?_
    rw [if_pos (by omega)] at hword
    omega
  rw [← hcode]
  exact Int64.toInt64_toUInt64 word

theorem toNat_ofNat {number : Nat} (h : (number : Int) ≤ Int64.maxValue.toInt) :
    (UInt64.ofNat number).toNat = number := by
  have hmax : Int64.maxValue.toInt = 9223372036854775807 := by decide
  refine UInt64.toNat_ofNat_of_lt' ?_
  show number < 18446744073709551616
  omega

/-! ## Records -/

/-- A record of a store and a record of a log server that say the same, whenever they were made. -/
structure Twin (record : Record) (other : ServerRecord) : Prop where
  event : other.toRecord.event = record.event
  stream : other.stream = record.stream.name
  version : record.version.toInt = other.revision.toNat
  sequence : record.sequence.toInt = other.commitPosition.toNat

/-- A record without its time. -/
def Record.untimed (record : Record) : Record := { record with recordedAt := default }

namespace Twin

variable {record : Record} {other : ServerRecord}

/-- Only the times differ. -/
theorem toRecord_eq (twin : Twin record other) :
    other.toRecord = { record with recordedAt := other.created } := by
  have hversion : (⟨other.revision.toInt64⟩ : StreamVersion) = record.version :=
    congrArg StreamVersion.mk (toInt64_eq twin.version)
  have hsequence : (⟨other.commitPosition.toInt64⟩ : SequenceNumber) = record.sequence :=
    congrArg SequenceNumber.mk (toInt64_eq twin.sequence)
  have hstream : (⟨other.stream⟩ : StreamId) = record.stream := congrArg StreamId.mk twin.stream
  rw [← twin.event, ← hversion, ← hsequence, ← hstream]
  rfl

theorem untimed (twin : Twin record other) : other.toRecord.untimed = record.untimed := by
  rw [twin.toRecord_eq]
  rfl

theorem of_stream (twin : Twin record other) (stream : StreamId) :
    decide (record.stream = stream) = decide (other.stream = stream.name) := by
  refine decide_eq_decide.mpr ?_
  rw [twin.stream]
  exact ⟨congrArg StreamId.name, congrArg StreamId.mk⟩

theorem id (twin : Twin record other) : other.eventId = record.id.name :=
  congrArg (fun event : Event => event.id.name) twin.event

theorem typeName (twin : Twin record other) : other.toRecord.typeName = record.typeName :=
  congrArg Event.typeName twin.event

end Twin

/-- Lists of records that say the same, one by one. -/
abbrev Twins (records : List Record) (others : List ServerRecord) : Prop :=
  List.Forall₂ Twin records others

namespace Twins

variable {records : List Record} {others : List ServerRecord}

theorem filter (twins : Twins records others) {keep : Record → Bool} {keep' : ServerRecord → Bool}
    (same : ∀ record other, Twin record other → keep record = keep' other) :
    Twins (records.filter keep) (others.filter keep') :=
  List.rel_filter (fun record other h => by
    show keep record = true ↔ keep' other = true
    rw [same record other h]) twins

theorem append {records' : List Record} {others' : List ServerRecord} (twins : Twins records others)
    (twins' : Twins records' others') : Twins (records ++ records') (others ++ others') :=
  List.rel_append twins twins'

theorem reverse (twins : Twins records others) : Twins records.reverse others.reverse :=
  List.rel_reverse twins

theorem take (twins : Twins records others) (count : Nat) :
    Twins (records.take count) (others.take count) :=
  List.forall₂_take count twins

theorem untimed (twins : Twins records others) :
    (others.map ServerRecord.toRecord).map Record.untimed = records.map Record.untimed := by
  induction twins with
  | nil => rfl
  | cons twin _ ih => rw [List.map_cons, List.map_cons, List.map_cons, twin.untimed, ih]

theorem isEmpty_eq (twins : Twins records others) : records.isEmpty = others.isEmpty := by
  cases twins <;> rfl

theorem head? (twins : Twins records others) :
    records.head? = none ∧ others.head? = none ∨
      ∃ record other, records.head? = some record ∧ others.head? = some other ∧ Twin record other := by
  cases twins with
  | nil => exact .inl ⟨rfl, rfl⟩
  | cons twin rest => exact .inr ⟨_, _, rfl, rfl, twin⟩

theorem getLast? (twins : Twins records others) :
    records.getLast? = none ∧ others.getLast? = none ∨
      ∃ record other, records.getLast? = some record ∧ others.getLast? = some other ∧
        Twin record other := by
  rw [List.getLast?_eq_head?_reverse, List.getLast?_eq_head?_reverse]
  exact twins.reverse.head?

theorem any (twins : Twins records others) (id : EventId) :
    (records.any fun record => record.id = id) = others.any fun other => other.eventId = id.name := by
  induction twins with
  | nil => rfl
  | @cons record other _ _ twin _ ih =>
    have hhead : decide (record.id = id) = decide (other.eventId = id.name) := by
      refine decide_eq_decide.mpr ?_
      rw [twin.id]
      exact ⟨congrArg EventId.name, congrArg EventId.mk⟩
    rw [List.any_cons, List.any_cons, ih, hhead]

end Twins

/-! ## States -/

namespace LogModel

/-- The server after a batch was added. -/
def add (server : LogModel) (stream : StreamId) (events : List ProposedEvent) : LogModel :=
  { heads :=
      (stream, (server.head? stream).getD 0 + events.length) :: server.heads.filter (·.1 ≠ stream),
    records := server.records
      ++ recordBatch stream events ((server.head? stream).getD 0) server.lastCommit,
    ids := server.ids ++ events.map ProposedEvent.eventId,
    lastCommit := server.lastCommit + events.length }

theorem append_of_not_meets {server : LogModel} {stream : StreamId} {expected : ExpectedRevision}
    (events : List ProposedEvent) (h : meets expected (server.head? stream) = false) :
    server.append stream expected events
      = (.wrongVersion (lastRevision (server.head? stream)), server) := by
  simp only [append, h, Bool.not_false, if_true]

theorem append_of_duplicate {server : LogModel} {stream : StreamId} {expected : ExpectedRevision}
    {events : List ProposedEvent} (h : meets expected (server.head? stream) = true)
    {event : ProposedEvent}
    (duplicate : (events.find? fun event => server.ids.contains event.eventId) = some event) :
    server.append stream expected events = (.duplicate event.eventId, server) := by
  simp only [append, h, duplicate, Bool.not_true, Bool.false_eq_true, if_false]

theorem append_of_fresh {server : LogModel} {stream : StreamId} {expected : ExpectedRevision}
    {events : List ProposedEvent} (h : meets expected (server.head? stream) = true)
    (fresh : (events.find? fun event => server.ids.contains event.eventId) = none) :
    server.append stream expected events
      = (.success (recordBatch stream events ((server.head? stream).getD 0) server.lastCommit),
          server.add stream events) := by
  simp only [append, h, fresh, Bool.not_true, Bool.false_eq_true, if_false]
  rfl

end LogModel

/-- A store in memory and a log server that hold the same journal. -/
structure Agrees (store : MemoryStore) (server : LogModel) : Prop where
  records : Twins store.records server.records
  /-- The next revision of a stream is the one after its version. -/
  heads : ∀ stream,
    server.head? stream = (store.version? stream).map fun version => (version.toInt + 1).toNat
  ids : ∀ id : EventId, id ∈ store.ids ↔ id.name ∈ server.ids
  commit : store.nextSequence.toInt = server.lastCommit + 1

namespace Agrees

variable {store : MemoryStore} {server : LogModel}

theorem empty : Agrees .empty .empty where
  records := .nil
  heads _ := rfl
  ids _ := by
    constructor <;> exact nofun
  commit := SequenceNumber.toInt_first

/-! ### Removing -/

/-- Both remove the records that they agree on, and free their ids. -/
theorem removeWhere (agrees : Agrees store server) {gone : Record → Bool} {gone' : ServerRecord → Bool}
    (same : ∀ record other, Twin record other → gone record = gone' other) :
    Agrees (store.removeWhere gone) (server.removeWhere gone') where
  records := agrees.records.filter fun record other twin => by rw [same record other twin]
  heads := agrees.heads
  ids id := by
    have hany := (agrees.records.filter same).any id
    simp only [MemoryStore.removeWhere, LogModel.removeWhere, List.mem_filter, hany, agrees.ids id]
  commit := agrees.commit

/-- A signed bound and the unsigned one that is sent for it cut alike. -/
theorem version_lt_iff {record : Record} {other : ServerRecord} (twin : Twin record other)
    (before : Position) :
    decide (record.version.position < before)
      = decide (other.revision < LogServer.cutRevision before) := by
  refine decide_eq_decide.mpr ?_
  rw [Position.lt_iff_toInt, StreamVersion.toInt_position, twin.version, UInt64.lt_iff_toNat_lt,
    LogServer.cutRevision]
  have hword := toNat_toUInt64 before.value
  have hsign : before.value ≤ 0 ↔ before.value.toInt ≤ 0 := Int64.le_iff_toInt_le
  have hbefore : before.toInt = before.value.toInt := rfl
  split
  · rename_i hle
    have hle := hsign.mp hle
    have hzero : (0 : UInt64).toNat = 0 := rfl
    omega
  · rename_i hpos
    have hpos : ¬ before.value.toInt ≤ 0 := fun h => hpos (hsign.mpr h)
    rw [if_pos (by omega)] at hword
    omega

theorem withoutHead (agrees : Agrees store server) (stream : StreamId) (before : Position) :
    Agrees (store.withoutHead stream before) (server.removeWhere fun other =>
      other.stream = stream.name && other.revision < LogServer.cutRevision before) :=
  agrees.removeWhere fun record other twin => by
    rw [twin.of_stream stream, version_lt_iff twin before]

theorem withoutStream (agrees : Agrees store server) (stream : StreamId) :
    Agrees (store.withoutStream stream)
      { server.removeWhere (·.stream = stream.name) with
        heads := server.heads.filter (·.1 ≠ stream) } := by
  have hremoved := agrees.removeWhere fun record other twin => twin.of_stream stream
  constructor
  case records => exact hremoved.records
  case heads =>
    intro other
    rw [MemoryStore.version?_withoutStream]
    show List.lookup other _ = _
    rw [MemoryStore.lookup_filter_ne]
    split
    · rfl
    · exact agrees.heads other
  case ids => exact hremoved.ids
  case commit => exact hremoved.commit

/-! ### Appending -/

/-- Both number a batch alike. -/
theorem twins_recordBatch (stream : StreamId) (now : Timestamp) (events : List Event)
    {version : StreamVersion} {sequence : SequenceNumber} {revision commit : Nat}
    (hversion : version.toInt + 1 = revision) (hsequence : sequence.toInt = commit + 1)
    (room : sequence.toInt + events.length ≤ Int64.maxValue.toInt)
    (room' : version.toInt + events.length ≤ Int64.maxValue.toInt) :
    Twins (MemoryStore.recordBatch stream now events version sequence).1
      (LogModel.recordBatch stream (events.map ProposedEvent.ofEvent) revision commit) := by
  induction events generalizing version sequence revision commit with
  | nil => exact .nil
  | cons event rest ih =>
    rw [List.length_cons, Int.natCast_add, Int.natCast_one] at room room'
    have hnext : version.next.toInt = version.toInt + 1 := StreamVersion.toInt_next (by omega)
    refine .cons ?_ ?_
    · constructor
      case event => exact ServerRecord.toRecord_event ..
      case stream => rfl
      case version =>
        show version.next.toInt = ((UInt64.ofNat revision).toNat : Int)
        rw [toNat_ofNat (by omega)]
        omega
      case sequence =>
        show sequence.toInt = ((UInt64.ofNat (commit + 1)).toNat : Int)
        rw [toNat_ofNat (by omega)]
        omega
    · -- the sequence number after the last one of all is of no use
      cases rest with
      | nil => exact .nil
      | cons next more =>
        rw [List.length_cons, Int.natCast_add, Int.natCast_one] at room room'
        have hsucc : sequence.next.toInt = sequence.toInt + 1 := SequenceNumber.toInt_next (by omega)
        refine ih (by omega) (by omega) ?_ ?_
        · rw [List.length_cons, Int.natCast_add, Int.natCast_one]
          omega
        · rw [List.length_cons, Int.natCast_add, Int.natCast_one]
          omega

/-- The next revision of a stream is the one after its version, also when it does not exist. -/
theorem head_getD (agrees : Agrees store server) (sound : store.Sound) (stream : StreamId) :
    (store.versionOf stream).toInt + 1 = (server.head? stream).getD 0 := by
  rw [agrees.heads, MemoryStore.versionOf]
  cases hversion : store.version? stream with
  | none =>
    show StreamVersion.initial.toInt + 1 = 0
    rw [StreamVersion.toInt_initial]
    rfl
  | some version =>
    have hpositive := (sound.version stream version hversion).1
    show version.toInt + 1 = ((version.toInt + 1).toNat : Int)
    omega

/-- Both add a batch alike. -/
theorem add (agrees : Agrees store server) (sound : store.Sound) (stream : StreamId) (now : Timestamp)
    (events : List Event)
    (room : store.nextSequence.toInt + events.length ≤ Int64.maxValue.toInt) :
    Twins (store.batch stream now events)
        (LogModel.recordBatch stream (events.map ProposedEvent.ofEvent)
          ((server.head? stream).getD 0) server.lastCommit) ∧
      Agrees (store.add stream now events).state
        (server.add stream (events.map ProposedEvent.ofEvent)) := by
  have hhead := agrees.head_getD sound stream
  have hbounds := sound.versionOf_bounds stream
  have hbatch : Twins (store.batch stream now events)
      (LogModel.recordBatch stream (events.map ProposedEvent.ofEvent)
        ((server.head? stream).getD 0) server.lastCommit) := by
    have htwins := twins_recordBatch stream now events hhead agrees.commit room (by omega)
    rw [MemoryStore.recordBatch_eq] at htwins
    exact htwins
  refine ⟨hbatch, ?_⟩
  constructor
  case records =>
    rw [MemoryStore.add_eq]
    exact agrees.records.append hbatch
  case heads =>
    intro other
    rw [MemoryStore.version?_add]
    show List.lookup other (_ :: _) = _
    rw [List.lookup_cons, MemoryStore.lookup_filter_ne]
    by_cases hsame : other = stream
    · -- the next revision is one beyond the version, before the batch and after it
      have hplus : ((store.versionOf stream).plus events.length).toInt
          = (store.versionOf stream).toInt + events.length := StreamVersion.toInt_plus (by omega)
      rw [hsame, if_pos rfl, if_pos rfl, Option.map_some, hplus, List.length_map, beq_self_eq_true]
      show some _ = some _
      congr 1
      omega
    · rw [beq_false_of_ne hsame, if_neg hsame, if_neg hsame]
      exact agrees.heads other
  case ids =>
    intro id
    rw [MemoryStore.add_eq]
    show id ∈ store.ids ++ _ ↔ id.name ∈ server.ids ++ _
    rw [MemoryStore.map_id_batch, List.mem_append, List.mem_append, agrees.ids id, List.map_map,
      List.mem_map, List.mem_map]
    refine or_congr_right (exists_congr fun event => and_congr_right fun _ => ?_)
    exact ⟨congrArg EventId.name, congrArg EventId.mk⟩
  case commit =>
    rw [MemoryStore.add_eq]
    show (store.nextSequence.plus events.length).toInt = ((server.lastCommit + _ : Nat) : Int) + 1
    rw [SequenceNumber.toInt_plus room, agrees.commit, List.length_map]
    omega

/-! ### Deciding an append -/

/-- Both find the same event of a batch in use. -/
theorem find?_eq (agrees : Agrees store server) (events : List Event) :
    (events.map ProposedEvent.ofEvent).find? (fun event => server.ids.contains event.eventId)
      = (store.duplicate? events).map ProposedEvent.ofEvent := by
  have hsame : (fun event : Event => server.ids.contains (ProposedEvent.ofEvent event).eventId)
      = fun event : Event => store.ids.contains event.id := by
    funext event
    refine Bool.eq_iff_iff.mpr ?_
    rw [List.contains_iff_mem, List.contains_iff_mem]
    exact (agrees.ids event.id).symm
  rw [List.find?_map, MemoryStore.duplicate?]
  exact congrArg (fun used => Option.map _ (List.find? used events)) hsame

/-- A stream that exists has a version from zero on, and its next revision is the one after it. -/
theorem head_of_version (agrees : Agrees store server) (sound : store.Sound) {stream : StreamId}
    {version : StreamVersion} (h : store.version? stream = some version) :
    ∃ number : Nat, version.toInt = number ∧ (number : Int) ≤ Int64.maxValue.toInt ∧
      server.head? stream = some (number + 1) := by
  obtain ⟨hpositive, hbound⟩ := sound.version stream version h
  obtain ⟨number, hnumber⟩ := Int.eq_ofNat_of_zero_le hpositive
  have hmax : store.nextSequence.toInt ≤ Int64.maxValue.toInt := store.nextSequence.value.toInt_le
  refine ⟨number, hnumber, by omega, ?_⟩
  rw [agrees.heads, h, Option.map_some]
  congr 1
  omega

/-- The last revision that the server reports is the version of the stream. -/
theorem lastRevision_eq (agrees : Agrees store server) (sound : store.Sound) (stream : StreamId) :
    ((LogModel.lastRevision (server.head? stream)).map fun revision =>
        (⟨revision.toInt64⟩ : StreamVersion)).getD .initial = store.versionOf stream := by
  rw [MemoryStore.versionOf]
  cases hversion : store.version? stream with
  | none =>
    rw [agrees.heads, hversion]
    rfl
  | some version =>
    obtain ⟨number, hnumber, hmax, hhead⟩ := agrees.head_of_version sound hversion
    rw [hhead]
    show (⟨(UInt64.ofNat number).toInt64⟩ : StreamVersion) = version
    refine congrArg StreamVersion.mk (toInt64_eq ?_)
    rw [toNat_ofNat hmax]
    exact hnumber

/-- A revision is sent for a version, and no other, when it is not negative. -/
theorem toNat_eq_iff {expected version : StreamVersion} {number : Nat}
    (h : version.toInt = number) : expected.value.toUInt64.toNat = number ↔ expected = version := by
  have hword := toNat_toUInt64 expected.value
  have hlow : Int64.minValue.toInt ≤ expected.value.toInt := expected.value.le_toInt
  have hmin : Int64.minValue.toInt = -9223372036854775808 := by decide
  have hhigh : version.value.toInt ≤ Int64.maxValue.toInt := version.value.toInt_le
  have hmax : Int64.maxValue.toInt = 9223372036854775807 := by decide
  have hversion : version.toInt = version.value.toInt := rfl
  rw [← StreamVersion.toInt_inj, h]
  show _ ↔ expected.value.toInt = _
  split at hword <;> omega

/-- The server's check of a version is that of the store. -/
theorem meets_iff (agrees : Agrees store server) (sound : store.Sound) (stream : StreamId)
    (expected : Option StreamVersion) :
    LogModel.meets (.ofVersion expected) (server.head? stream) = true
      ↔ ∀ version ∈ expected, version = store.versionOf stream := by
  cases expected with
  | none => exact ⟨fun _ version hversion => absurd hversion (Option.not_mem_none version), fun _ => rfl⟩
  | some expected =>
    have hany : (∀ version ∈ some expected, version = store.versionOf stream)
        ↔ expected = store.versionOf stream :=
      ⟨fun h => h expected rfl, fun h version hversion => Option.some.inj hversion ▸ h⟩
    have hinit : expected.isInitial = true ↔ expected = .initial := decide_eq_true_iff
    rw [hany, MemoryStore.versionOf, ExpectedRevision.ofVersion]
    cases hversion : store.version? stream with
    | none =>
      rw [agrees.heads, hversion]
      show _ ↔ expected = .initial
      by_cases hinitial : expected = .initial
      · rw [if_pos (hinit.mpr hinitial)]
        exact ⟨fun _ => hinitial, fun _ => rfl⟩
      · rw [if_neg fun h => hinitial (hinit.mp h)]
        exact ⟨(by intro h; cases h), fun h => absurd h hinitial⟩
    | some version =>
      obtain ⟨number, hnumber, -, hhead⟩ := agrees.head_of_version sound hversion
      rw [hhead]
      show _ ↔ expected = version
      by_cases hinitial : expected = .initial
      · rw [if_pos (hinit.mpr hinitial)]
        refine ⟨(by intro h; cases h), fun h => ?_⟩
        rw [← h, hinitial, StreamVersion.toInt_initial] at hnumber
        omega
      · rw [if_neg fun h => hinitial (hinit.mp h)]
        show decide _ = true ↔ _
        rw [decide_eq_true_iff]
        exact toNat_eq_iff hnumber

end Agrees

end EventJournal
