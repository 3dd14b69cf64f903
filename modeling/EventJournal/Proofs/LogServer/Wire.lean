import EventJournal.LogServer.Protocol
import EventJournal.Process.Checkpoint
import EventJournal.Proofs.Event.Codec
import EventJournal.Proofs.Json.Text
import EventJournal.Proofs.LogServer.Requests
import EventJournal.Proofs.Time.Timestamp

/-!
# What is sent is what arrives

Everything that goes to a log server or comes from it is written as JSON and read back as it was: the words of
a protocol, proposals and records, and the journal's own events, records, extents and checkpoints. An event that
a server keeps as it was proposed comes back as the same event, at the version and sequence number that the
server counted.

* `Json.Shape.members_of_fits`, `Json.read_field` — a structure is read member by member.
* `ofJson_toJson`, for each structure — it reads back, whatever its strings, numbers and payload are.
* `Json.Carries` — the text of a structure reads back too, when its payload is not nested past the reader's limit.
* `wire_faithful` — all of it, as a value and as text, and the way of an event to a server and back.
-/

namespace EventJournal

/-! ## Members -/

namespace Json

theorem Decoder.uint64_ofUInt64 (word : UInt64) : Decoder.uint64 (ofUInt64 word) = .ok word := by
  have hrange : (0 : Int) ≤ word.toNat ∧ (word.toNat : Int) ≤ UInt64.size - 1 := by
    have := word.toNat_lt_size
    omega
  simp only [uint64, integer, ofUInt64, if_pos hrange, Except.map, Int.toNat_natCast, UInt64.ofNat_toNat]

/-- A step of a reader that succeeds is followed by the next one. -/
theorem read_bind {α β : Type} {step : Except DecodeError α} {next : α → Except DecodeError β} {part : α}
    {whole : β} (h : step = .ok part) (hnext : next part = .ok whole) : (step >>= next) = .ok whole := by
  rw [h]
  exact hnext

/-- A field that is there and reads back is followed by the next one. -/
theorem read_field {α β : Type} {members : Fields} {name : String} {decode : Decoder α} {value : Json} {part : α}
    {next : α → Except DecodeError β} {whole : β} (there : members.get? name = some value)
    (h : decode value = .ok part) (hnext : next part = .ok whole) :
    (field members name decode >>= next) = .ok whole := by
  refine read_bind ?_ hnext
  rw [field, there]
  exact h

namespace Shape

/-- A member has its place in a structure and fits there. -/
def Fits (shape : Shape) (pair : String × Json) : Prop :=
  ∃ field, shape.fields.find? (·.name = pair.1) = some field ∧ field.check pair.2 = .ok ()

/-- An object of members that fit, which misses none, has the shape of a structure. -/
theorem members_of_fits {shape : Shape} {fields : Fields} (fit : ∀ pair ∈ fields, shape.Fits pair)
    (present : (shape.fields.all fun field => fields.contains field.name) = true) :
    shape.members (.obj fields) = .ok fields := by
  refine members_obj (fun pair hpair field hfield => ?_) (List.all_eq_true.mp present)
  obtain ⟨found, hfound, hcheck⟩ := fit pair hpair
  cases hfound.symm.trans hfield
  exact hcheck

end Shape

/-! ## Text -/

@[simp] theorem legible_str (levels : Nat) (text : String) : Legible levels (.str text) := by
  cases levels <;> exact trivial

@[simp] theorem legible_ofInt64 (levels : Nat) (word : Int64) : Legible levels (ofInt64 word) := by
  have hmax : Int64.maxValue.toInt = 9223372036854775807 := by decide
  have hsize : UInt64.size = 18446744073709551616 := rfl
  have hlow := word.minValue_le_toInt
  have hhigh := word.toInt_le
  have hword : Int64.minValue.toInt ≤ word.toInt ∧ word.toInt < UInt64.size := by omega
  cases levels <;> exact hword

@[simp] theorem legible_ofUInt64 (levels : Nat) (word : UInt64) : Legible levels (ofUInt64 word) := by
  have hmin : Int64.minValue.toInt = -9223372036854775808 := by decide
  have hhigh := word.toNat_lt_size
  have hword : Int64.minValue.toInt ≤ (word.toNat : Int) ∧ (word.toNat : Int) < UInt64.size := by omega
  cases levels <;> exact hword

/-- A level of members that text carries, in key order, is carried. -/
theorem legible_obj {levels : Nat} {fields : Fields} (ordered : (fields.map Prod.fst).Pairwise (· < ·))
    (h : ∀ pair ∈ fields, Legible levels pair.2) : Legible (levels + 1) (.obj fields) :=
  ⟨List.pairwise_map.mp ordered, h⟩

/-- A value reads back from its JSON, and from the text of it if text carries the free parts in it: a level is
open around them. -/
def Carries {α : Type} (encode : α → Json) (decode : Decoder α) (parts : List Json) (x : α) : Prop :=
  decode (encode x) = .ok x ∧
    ∀ levels, levels + 1 < depthLimit → (∀ part ∈ parts, Legible levels part) →
      ∃ value, parse (encode x).compact = .ok value ∧ decode value = .ok x

theorem carries_of_reads {α : Type} {encode : α → Json} {decode : Decoder α} {parts : List Json} {x : α}
    (reads : decode (encode x) = .ok x)
    (legible : ∀ {levels}, (∀ part ∈ parts, Legible levels part) → Legible (levels + 1) (encode x)) :
    Carries encode decode parts x :=
  ⟨reads, fun _ deep hparts => ⟨encode x, parse_compact (legible hparts) deep, reads⟩⟩

end Json

/-! ## Versions and sequence numbers -/

theorem StreamVersion.ofJson_ofInt64 (version : StreamVersion) :
    StreamVersion.ofJson (Json.ofInt64 version.value) = .ok version := by
  rw [StreamVersion.ofJson, Json.Decoder.int64_ofInt64]
  rfl

theorem SequenceNumber.ofJson_ofInt64 (sequence : SequenceNumber) :
    SequenceNumber.ofJson (Json.ofInt64 sequence.value) = .ok sequence := by
  rw [SequenceNumber.ofJson, Json.Decoder.int64_ofInt64]
  rfl

/-! ## The journal's structures -/

theorem Event.ofJson_toJson (event : Event) : Event.ofJson event.toJson = .ok event := by
  refine Json.read_bind (Json.Shape.members_of_fits ?_ rfl) rfl
  simp only [List.forall_mem_cons, List.not_mem_nil, false_imp_iff, implies_true, and_true]
  exact ⟨⟨_, rfl, rfl⟩, ⟨_, rfl, rfl⟩, ⟨_, rfl, rfl⟩, ⟨_, rfl, rfl⟩⟩

theorem Event.carries (event : Event) :
    Json.Carries toJson ofJson [.obj event.metadata.fields, event.payload] event := by
  refine Json.carries_of_reads event.ofJson_toJson fun h => ?_
  have hkeys : ["id", "metadata", "payload", "type_name"].Pairwise (· < ·) := by decide
  exact Json.legible_obj hkeys (by simpa using h)

theorem Record.ofJson_toJson {record : Record} (written : record.recordedAt.Writable) :
    Record.ofJson record.toJson = .ok record := by
  have hversion := StreamVersion.ofJson_ofInt64 record.version
  have hsequence := SequenceNumber.ofJson_ofInt64 record.sequence
  have htime := Timestamp.ofJson_text written
  refine Json.read_bind (Json.Shape.members_of_fits ?_ rfl) ?_
  · simp only [List.forall_mem_cons, List.not_mem_nil, false_imp_iff, implies_true, and_true]
    exact ⟨⟨_, rfl, rfl⟩, ⟨_, rfl, rfl⟩, ⟨_, rfl, rfl⟩, ⟨_, rfl, Json.Field.check_required htime⟩,
      ⟨_, rfl, Json.Field.check_required hsequence⟩, ⟨_, rfl, rfl⟩, ⟨_, rfl, rfl⟩,
      ⟨_, rfl, Json.Field.check_required hversion⟩⟩
  · exact Json.read_field rfl rfl <| Json.read_field rfl rfl <| Json.read_field rfl rfl <|
      Json.read_field rfl rfl <| Json.read_field rfl rfl <| Json.read_field rfl hversion <|
      Json.read_field rfl hsequence <| Json.read_field rfl htime rfl

theorem Record.carries {record : Record} (written : record.recordedAt.Writable) :
    Json.Carries toJson ofJson [.obj record.event.metadata.fields, record.event.payload] record := by
  refine Json.carries_of_reads (ofJson_toJson written) fun h => ?_
  have hkeys :
      ["id", "metadata", "payload", "recorded_at", "sequence_number", "stream_id", "type_name", "version"].Pairwise
        (· < ·) := by decide
  exact Json.legible_obj hkeys (by simpa using h)

theorem StreamBounds.ofJson_toJson (bounds : StreamBounds) : StreamBounds.ofJson bounds.toJson = .ok bounds := by
  have hinitial := StreamVersion.ofJson_ofInt64 bounds.initialVersion
  have hversion := StreamVersion.ofJson_ofInt64 bounds.version
  refine Json.read_bind (Json.Shape.members_of_fits ?_ rfl) ?_
  · simp only [List.forall_mem_cons, List.not_mem_nil, false_imp_iff, implies_true, and_true]
    exact ⟨⟨_, rfl, rfl⟩, ⟨_, rfl, Json.Field.check_required hinitial⟩,
      ⟨_, rfl, Json.Field.check_required hversion⟩⟩
  · exact Json.read_field rfl rfl <| Json.read_field rfl hversion <| Json.read_field rfl hinitial rfl

theorem StreamBounds.carries (bounds : StreamBounds) : Json.Carries toJson ofJson [] bounds := by
  refine Json.carries_of_reads bounds.ofJson_toJson fun _ => ?_
  have hkeys : ["id", "initial_version", "version"].Pairwise (· < ·) := by decide
  exact Json.legible_obj hkeys (by simp)

theorem Checkpoint.ofJson_toJson (checkpoint : Checkpoint) :
    Checkpoint.ofJson checkpoint.toJson = .ok checkpoint := by
  have hposition := Position.ofJson_ofInt64 checkpoint.position
  refine Json.read_bind (Json.Shape.members_of_fits ?_ rfl) ?_
  · simp only [List.forall_mem_cons, List.not_mem_nil, false_imp_iff, implies_true, and_true]
    exact ⟨⟨_, rfl, rfl⟩, ⟨_, rfl, Json.Field.check_required hposition⟩, ⟨_, rfl, rfl⟩⟩
  · exact Json.read_field rfl rfl <| Json.read_field rfl rfl <| Json.read_field rfl hposition rfl

theorem Checkpoint.carries (checkpoint : Checkpoint) : Json.Carries toJson ofJson [] checkpoint := by
  refine Json.carries_of_reads checkpoint.ofJson_toJson fun _ => ?_
  have hkeys : ["id", "position", "stream_id"].Pairwise (· < ·) := by decide
  exact Json.legible_obj hkeys (by simp)

/-! ## The protocol -/

theorem ExpectedRevision.ofJson_toJson (expected : ExpectedRevision) :
    ExpectedRevision.ofJson expected.toJson = .ok expected := by
  cases expected with
  | any => rfl
  | noStream => rfl
  | exact revision =>
    show (Json.Decoder.uint64 (Json.ofUInt64 revision)).map ExpectedRevision.exact = _
    rw [Json.Decoder.uint64_ofUInt64]
    rfl

theorem ExpectedRevision.carries (expected : ExpectedRevision) : Json.Carries toJson ofJson [] expected := by
  refine Json.carries_of_reads expected.ofJson_toJson fun _ => ?_
  have hkeys : ["kind", "revision"].Pairwise (· < ·) := by decide
  cases expected with
  | any | noStream => exact Json.legible_obj (List.pairwise_singleton _ _) (by simp)
  | exact revision => exact Json.legible_obj hkeys (by simp)

theorem ProposedEvent.ofJson_toJson (proposed : ProposedEvent) :
    ProposedEvent.ofJson proposed.toJson = .ok proposed := by
  refine Json.read_bind (Json.Shape.members_of_fits ?_ rfl) rfl
  simp only [List.forall_mem_cons, List.not_mem_nil, false_imp_iff, implies_true, and_true]
  exact ⟨⟨_, rfl, rfl⟩, ⟨_, rfl, rfl⟩, ⟨_, rfl, rfl⟩, ⟨_, rfl, rfl⟩⟩

theorem ProposedEvent.carries (proposed : ProposedEvent) :
    Json.Carries toJson ofJson [proposed.data, .obj proposed.metadata] proposed := by
  refine Json.carries_of_reads proposed.ofJson_toJson fun h => ?_
  have hkeys : ["data", "eventId", "eventType", "metadata"].Pairwise (· < ·) := by decide
  exact Json.legible_obj hkeys (by simpa using h)

theorem ServerRecord.ofJson_toJson {record : ServerRecord} (written : record.created.Writable) :
    ServerRecord.ofJson record.toJson = .ok record := by
  have hrevision := Json.Decoder.uint64_ofUInt64 record.revision
  have hcommit := Json.Decoder.uint64_ofUInt64 record.commitPosition
  have htime := Timestamp.ofJson_text written
  refine Json.read_bind (Json.Shape.members_of_fits ?_ rfl) ?_
  · simp only [List.forall_mem_cons, List.not_mem_nil, false_imp_iff, implies_true, and_true]
    exact ⟨⟨_, rfl, Json.Field.check_required hcommit⟩, ⟨_, rfl, Json.Field.check_required htime⟩,
      ⟨_, rfl, rfl⟩, ⟨_, rfl, rfl⟩, ⟨_, rfl, rfl⟩, ⟨_, rfl, rfl⟩,
      ⟨_, rfl, Json.Field.check_required hrevision⟩, ⟨_, rfl, rfl⟩⟩
  · refine Json.read_field rfl rfl <| Json.read_field rfl rfl <| Json.read_field rfl rfl <|
      Json.read_field rfl hrevision <| Json.read_field rfl hcommit <| Json.read_field rfl rfl <|
      Json.read_bind rfl <| Json.read_field rfl htime rfl

theorem ServerRecord.carries {record : ServerRecord} (written : record.created.Writable) :
    Json.Carries toJson ofJson [record.data, .obj record.metadata] record := by
  refine Json.carries_of_reads (ofJson_toJson written) fun h => ?_
  have hkeys :
      ["commitPosition", "created", "data", "eventId", "eventType", "metadata", "revision", "stream"].Pairwise
        (· < ·) := by decide
  exact Json.legible_obj hkeys (by simpa using h)

/-- An event that a server keeps as it was proposed comes back as it was, at the server's numbers. -/
theorem ServerRecord.toRecord_ofProposed (event : Event) (stream : StreamId) {revision commit : UInt64}
    (created : Timestamp) (hrevision : revision.toNat < 2 ^ 63) (hcommit : commit.toNat < 2 ^ 63) :
    let record := (ofProposed (.ofEvent event) stream.name revision commit created).toRecord
    record.event = event ∧ record.stream = stream ∧ record.recordedAt = created ∧
      record.version.value.toInt = revision.toNat ∧ record.sequence.value.toInt = commit.toNat := by
  have hmax : Int64.maxValue.toInt = 9223372036854775807 := by decide
  have hversion : revision.toInt64.toInt = revision.toNat := toInt_toInt64 (by omega)
  have hsequence : commit.toInt64.toInt = commit.toNat := toInt_toInt64 (by omega)
  exact ⟨toRecord_event event stream.name revision commit created, rfl, rfl, hversion, hsequence⟩

/-! ## The whole wire -/

/-- Everything on the wire reads back, whatever its strings, numbers and JSON are; a time has to have a year of
four digits. Text carries it too, within the levels that the reader takes. An event that goes to a server as a
proposal, is kept there as a record and is read from it is the same event, at the server's numbers. -/
theorem wire_faithful :
    (∀ expected : ExpectedRevision,
        Json.Carries ExpectedRevision.toJson ExpectedRevision.ofJson [] expected) ∧
      (∀ proposed : ProposedEvent,
        Json.Carries ProposedEvent.toJson ProposedEvent.ofJson [proposed.data, .obj proposed.metadata] proposed) ∧
      (∀ record : ServerRecord, record.created.Writable →
        Json.Carries ServerRecord.toJson ServerRecord.ofJson [record.data, .obj record.metadata] record) ∧
      (∀ event : Event,
        Json.Carries Event.toJson Event.ofJson [.obj event.metadata.fields, event.payload] event) ∧
      (∀ record : Record, record.recordedAt.Writable →
        Json.Carries Record.toJson Record.ofJson [.obj record.event.metadata.fields, record.event.payload] record) ∧
      (∀ bounds : StreamBounds, Json.Carries StreamBounds.toJson StreamBounds.ofJson [] bounds) ∧
      (∀ checkpoint : Checkpoint, Json.Carries Checkpoint.toJson Checkpoint.ofJson [] checkpoint) ∧
      ∀ (event : Event) (stream : StreamId) (revision commit : UInt64) (created : Timestamp),
        created.Writable → revision.toNat < 2 ^ 63 → commit.toNat < 2 ^ 63 →
          ∃ proposed kept, ProposedEvent.ofJson (ProposedEvent.ofEvent event).toJson = .ok proposed ∧
            ServerRecord.ofJson (ServerRecord.ofProposed proposed stream.name revision commit created).toJson
              = .ok kept ∧
            kept.toRecord.event = event ∧ kept.toRecord.stream = stream ∧ kept.toRecord.recordedAt = created ∧
            kept.toRecord.version.value.toInt = revision.toNat ∧
            kept.toRecord.sequence.value.toInt = commit.toNat := by
  refine ⟨ExpectedRevision.carries, ProposedEvent.carries, fun _ => ServerRecord.carries, Event.carries,
    fun _ => Record.carries, StreamBounds.carries, Checkpoint.carries, ?_⟩
  intro event stream revision commit created written hrevision hcommit
  refine ⟨.ofEvent event, .ofProposed (.ofEvent event) stream.name revision commit created,
    ProposedEvent.ofJson_toJson _, ServerRecord.ofJson_toJson written, ?_⟩
  exact ServerRecord.toRecord_ofProposed event stream created hrevision hcommit

/-- An event of nested JSON: a text to escape, the least whole number, and a number with places in a list in an
object. -/
def placedOrder : Event :=
  { id := ⟨"evt-1"⟩, typeName := "order_placed",
    payload := .obj
      [("lines", .arr [.obj [("price", .float "1.5")], .null]), ("total", .int (-9223372036854775808))],
    metadata := ⟨[("note", .str "said \"go\"\n")]⟩ }

/-- Half way through the leap second at the end of 2016. -/
def leapSecond : Timestamp := ⟨1483228799, 1500000000⟩

theorem writable_leapSecond : leapSecond.Writable := ⟨by decide, by decide, by decide⟩

theorem wire_faithful_sample :
    (∃ value, Json.parse placedOrder.toJson.compact = .ok value ∧ Event.ofJson value = .ok placedOrder) ∧
      ∃ proposed kept, ProposedEvent.ofJson (ProposedEvent.ofEvent placedOrder).toJson = .ok proposed ∧
        ServerRecord.ofJson (ServerRecord.ofProposed proposed "orders-1" 4 9223372036854775807 leapSecond).toJson
          = .ok kept ∧
        kept.toRecord.event = placedOrder ∧ kept.toRecord.stream = ⟨"orders-1"⟩ ∧
        kept.toRecord.recordedAt = leapSecond ∧ kept.toRecord.version.value.toInt = 4 ∧
        kept.toRecord.sequence.value.toInt = 9223372036854775807 := by
  obtain ⟨-, -, -, hevent, -, -, -, htrip⟩ := wire_faithful
  refine ⟨(hevent placedOrder).2 3 (by decide) ?_,
    htrip placedOrder ⟨"orders-1"⟩ 4 9223372036854775807 leapSecond writable_leapSecond (by decide) (by decide)⟩
  have hkeys : ["lines", "total"].Pairwise (· < ·) := by decide
  have hpayload : Json.Legible 3 placedOrder.payload := by
    refine Json.legible_obj hkeys ?_
    simp [Json.Legible, Json.floatReads_three_halves]
  have hmetadata : Json.Legible 3 (.obj placedOrder.metadata.fields) := by
    simp [placedOrder, Json.Legible]
  simpa using ⟨hmetadata, hpayload⟩

end EventJournal
