/-!
# Identifiers and positions

Streams and events have opaque names; versions count the events of one stream, sequence numbers those
of the whole journal. A position is a cursor: a version on a regular stream, a sequence number on the
global stream, with a place before the first event and one after the last.

Versions, sequence numbers and positions are 64-bit words; the successor of the last one wraps.
Main statements: `StreamVersion.toInt_next` and `SequenceNumber.toInt_next`, below the last word the
successor is one more; `Position.lt_iff_toInt`, positions are ordered as integers.
-/

namespace EventJournal

/-! ## Streams -/

/-- The name of a stream. -/
structure StreamId where
  name : String
  deriving Repr, DecidableEq, Inhabited

namespace StreamId

/-- The virtual stream of every event in sequence order. -/
def global : StreamId := ⟨"$all"⟩

/-- The stream of the markers written by truncation and deletion. -/
def markers : StreamId := ⟨"$eventstore"⟩

/-- Whether this is the global stream. -/
def isGlobal (stream : StreamId) : Bool := stream = global

/-- Whether this is the stream of markers. -/
def isMarkers (stream : StreamId) : Bool := stream = markers

theorem isGlobal_iff {stream : StreamId} : stream.isGlobal = true ↔ stream = global := by
  simp [isGlobal]

theorem isMarkers_iff {stream : StreamId} : stream.isMarkers = true ↔ stream = markers := by
  simp [isMarkers]

theorem markers_ne_global : markers ≠ global := by decide

end StreamId

/-! ## Events -/

/-- The name of an event, unique in the whole journal. -/
structure EventId where
  name : String
  deriving Repr, DecidableEq, Inhabited

/-- The name of the event at `index` among those split off this one. -/
def EventId.derived (id : EventId) (index : Nat) : EventId :=
  ⟨id.name ++ "-" ++ toString index⟩

/-! ## Versions and sequence numbers -/

/-- The version of a stream: that of its last event, counted from zero. -/
structure StreamVersion where
  value : Int64
  deriving Repr, DecidableEq, Inhabited

namespace StreamVersion

/-- The version of a stream without events. -/
def initial : StreamVersion := ⟨-1⟩

/-- The version after this one. -/
def next (version : StreamVersion) : StreamVersion := ⟨version.value + 1⟩

/-- Whether the stream has no events yet. -/
def isInitial (version : StreamVersion) : Bool := version = initial

/-- The version as an integer. -/
def toInt (version : StreamVersion) : Int := version.value.toInt

/-- Decimal text. -/
def text (version : StreamVersion) : String := toString version.toInt

theorem toInt_inj {a b : StreamVersion} : a.toInt = b.toInt ↔ a = b := by
  cases a; cases b; simp [toInt, Int64.toInt_inj]

theorem toInt_initial : initial.toInt = -1 := by decide

theorem toInt_next {version : StreamVersion} (h : version.toInt < Int64.maxValue.toInt) :
    version.next.toInt = version.toInt + 1 := by
  have low := version.value.le_toInt
  have high : Int64.maxValue.toInt = 9223372036854775807 := by decide
  simp only [toInt, next] at *
  rw [Int64.toInt_add]
  have one : (1 : Int64).toInt = 1 := by decide
  rw [one]
  apply Int.bmod_eq_of_le <;> omega

end StreamVersion

/-- The place of an event in the order of the whole journal, counted from one. -/
structure SequenceNumber where
  value : Int64
  deriving Repr, DecidableEq, Inhabited

namespace SequenceNumber

/-- The first sequence number. -/
def first : SequenceNumber := ⟨1⟩

/-- The sequence number after this one. -/
def next (sequence : SequenceNumber) : SequenceNumber := ⟨sequence.value + 1⟩

/-- The sequence number as an integer. -/
def toInt (sequence : SequenceNumber) : Int := sequence.value.toInt

/-- Decimal text. -/
def text (sequence : SequenceNumber) : String := toString sequence.toInt

instance : LE SequenceNumber where le a b := a.value ≤ b.value

instance : LT SequenceNumber where lt a b := a.value < b.value

instance (a b : SequenceNumber) : Decidable (a ≤ b) := inferInstanceAs (Decidable (a.value ≤ b.value))

instance (a b : SequenceNumber) : Decidable (a < b) := inferInstanceAs (Decidable (a.value < b.value))

theorem le_iff_toInt {a b : SequenceNumber} : a ≤ b ↔ a.toInt ≤ b.toInt := Int64.le_iff_toInt_le

theorem lt_iff_toInt {a b : SequenceNumber} : a < b ↔ a.toInt < b.toInt := Int64.lt_iff_toInt_lt

theorem toInt_inj {a b : SequenceNumber} : a.toInt = b.toInt ↔ a = b := by
  cases a; cases b; simp [toInt, Int64.toInt_inj]

theorem toInt_first : first.toInt = 1 := by decide

theorem toInt_next {sequence : SequenceNumber} (h : sequence.toInt < Int64.maxValue.toInt) :
    sequence.next.toInt = sequence.toInt + 1 := by
  have low := sequence.value.le_toInt
  have high : Int64.maxValue.toInt = 9223372036854775807 := by decide
  simp only [toInt, next] at *
  rw [Int64.toInt_add]
  have one : (1 : Int64).toInt = 1 := by decide
  rw [one]
  apply Int.bmod_eq_of_le <;> omega

end SequenceNumber

/-! ## Positions -/

/-- A cursor into a stream; the event at the position itself is never read. -/
structure Position where
  value : Int64
  deriving Repr, DecidableEq

namespace Position

/-- Before the first event. -/
def start : Position := ⟨-1⟩

/-- After the last event: the greatest word. -/
def last : Position := ⟨Int64.maxValue⟩

instance : Inhabited Position := ⟨start⟩

instance : LE Position where le a b := a.value ≤ b.value

instance : LT Position where lt a b := a.value < b.value

instance (a b : Position) : Decidable (a ≤ b) := inferInstanceAs (Decidable (a.value ≤ b.value))

instance (a b : Position) : Decidable (a < b) := inferInstanceAs (Decidable (a.value < b.value))

/-- Whether this is the place before the first event. -/
def isStart (position : Position) : Bool := position = start

/-- Whether this is the place after the last event. -/
def isLast (position : Position) : Bool := position = last

/-- The position as an integer. -/
def toInt (position : Position) : Int := position.value.toInt

/-- The greater of two positions. -/
def max (a b : Position) : Position := if a ≤ b then b else a

/-- The two ends have names; any other position is a number. -/
def text (position : Position) : String :=
  if position.isStart then "start" else if position.isLast then "end" else toString position.toInt

theorem le_iff_toInt {a b : Position} : a ≤ b ↔ a.toInt ≤ b.toInt := Int64.le_iff_toInt_le

theorem lt_iff_toInt {a b : Position} : a < b ↔ a.toInt < b.toInt := Int64.lt_iff_toInt_lt

theorem toInt_inj {a b : Position} : a.toInt = b.toInt ↔ a = b := by
  cases a; cases b; simp [toInt, Int64.toInt_inj]

instance : Std.IsLinearOrder Position where
  le_refl a := le_iff_toInt.mpr (Int.le_refl _)
  le_trans a b c h h' := by
    rw [le_iff_toInt] at h h' ⊢
    exact Int.le_trans h h'
  le_antisymm a b h h' := by
    rw [le_iff_toInt] at h h'
    exact toInt_inj.mp (Int.le_antisymm h h')
  le_total a b := by
    rw [le_iff_toInt, le_iff_toInt]
    exact Int.le_total _ _

instance : Std.LawfulOrderLT Position where
  lt_iff a b := by
    rw [lt_iff_toInt, le_iff_toInt, le_iff_toInt]
    omega

theorem toInt_start : start.toInt = -1 := by decide

end Position

/-- A version as a cursor into its stream. -/
def StreamVersion.position (version : StreamVersion) : Position := ⟨version.value⟩

/-- A sequence number as a cursor into the global stream. -/
def SequenceNumber.position (sequence : SequenceNumber) : Position := ⟨sequence.value⟩

theorem StreamVersion.toInt_position (version : StreamVersion) :
    version.position.toInt = version.toInt := rfl

theorem SequenceNumber.toInt_position (sequence : SequenceNumber) :
    sequence.position.toInt = sequence.toInt := rfl

end EventJournal
