import EventJournal.Event.Basic

/-!
# Drafts

A draft is a record opened for editing while it is upcast. Its type, payload and metadata may change;
its stream, version, sequence number and time are those of the record it came from, and so are those
of the drafts split off it.

Fields are edited on object payloads. Adding to a null payload makes it an object; other payloads are
left alone.

Main statement: `Draft.toRecord_ofRecord`, opening and closing a record changes nothing.
-/

namespace EventJournal

namespace Json

/-- Sets a field of a payload. -/
def addField (payload : Json) (field : String) (value : Json) : Json :=
  match payload with
  | .null => .obj (Fields.insert [] field value)
  | .obj fields => .obj (Fields.insert fields field value)
  | other => other

/-- Removes a field of a payload. -/
def removeField (payload : Json) (field : String) : Json :=
  match payload with
  | .obj fields => .obj (Fields.erase fields field)
  | other => other

/-- Moves a field of a payload. `none` if there is no such field. -/
def renameField? (payload : Json) (source target : String) : Option Json :=
  match payload with
  | .obj fields => (Fields.rename? fields source target).map .obj
  | _ => none

end Json

/-- A record opened for editing. -/
structure Draft where
  id : EventId
  typeName : String
  payload : Json
  metadata : Metadata
  stream : StreamId
  version : StreamVersion
  sequence : SequenceNumber
  recordedAt : Timestamp
  deriving Repr, DecidableEq, Inhabited

namespace Draft

/-- Opens a record. -/
def ofRecord (record : Record) : Draft :=
  { id := record.event.id, typeName := record.event.typeName, payload := record.event.payload,
    metadata := record.event.metadata, stream := record.stream, version := record.version,
    sequence := record.sequence, recordedAt := record.recordedAt }

/-- Closes a draft. -/
def toRecord (draft : Draft) : Record :=
  { event :=
      { id := draft.id, typeName := draft.typeName, payload := draft.payload,
        metadata := draft.metadata },
    stream := draft.stream, version := draft.version, sequence := draft.sequence,
    recordedAt := draft.recordedAt }

/-- The draft at `index` among those split off this one: an id, a type and a payload of its own, and a
copy of the metadata. -/
def split (draft : Draft) (index : Nat) (typeName : String) (payload : Json) : Draft :=
  { draft with id := draft.id.derived index, typeName, payload }

theorem toRecord_ofRecord (record : Record) : (ofRecord record).toRecord = record := rfl

theorem ofRecord_toRecord (draft : Draft) : ofRecord draft.toRecord = draft := rfl

end Draft

end EventJournal
