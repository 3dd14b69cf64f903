import EventJournal.Upcast.Chain

/-!
# Scripted upcasters

An upcaster written as data: the drafts it supports, and the edits it makes one after another. An edit
that asks something notes the answer. The edits end with what comes out: the draft itself, or, as the
last edit says, a failure, nothing, copies or splits.
-/

namespace EventJournal

/-- The drafts a scripted upcaster supports. -/
inductive Support where
  | type (name : String)
  | typeStartsWith (start : String)
  | hasField (field : String)
  | hasMetadata (key : String)
  | always (yes : Bool)
  deriving Repr, DecidableEq, Inhabited

/-- Whether a draft is supported. -/
def Support.admits (support : Support) (draft : Draft) : Bool :=
  match support with
  | .type name => draft.typeName = name
  | .typeStartsWith start => draft.typeName.startsWith start
  | .hasField field => (draft.payload.get? field).isSome
  | .hasMetadata key => (draft.metadata.get? key).isSome
  | .always yes => yes

/-- Where the payload of a split comes from. -/
inductive SplitPayload where
  | given (payload : Json)
  /-- The value of a field under its own name, or null. -/
  | field (name : String)
  deriving Repr, DecidableEq, Inhabited

/-- One part of a split. -/
structure SplitPart where
  index : Nat
  typeName : String
  payload : SplitPayload
  deriving Repr, DecidableEq, Inhabited

/-- An edit. -/
inductive Edit where
  | setType (name : String)
  | rename (source target : String)
  | remove (field : String)
  | add (field : String) (value : Json)
  | copy (source target : String)
  | getString (field : String)
  | renameMetadata (source target : String)
  | removeMetadata (key : String)
  | addMetadata (key : String) (value : Json)
  | getMetadataString (key : String)
  /-- Notes the id, the stream, the version and the sequence number. -/
  | locate
  /-- Fails without a field. -/
  | require (field : String)
  | fail (error : StoreError)
  | drop
  | copies (count : Nat)
  | split (parts : List SplitPart)
  deriving Repr, DecidableEq, Inhabited

namespace Edit

/-- A value or null. -/
def orNull (value : Option Json) : Json := value.getD .null

/-- A string or null. -/
def stringOrNull (value : Option Json) : Json := (value.bind Json.asStr?).elim .null .str

/-- The draft after an edit that goes on, and the note of the edit. -/
def apply (draft : Draft) : Edit → Draft × Option Json
  | setType name => ({ draft with typeName := name }, none)
  | rename source target =>
    match draft.payload.renameField? source target with
    | some payload => ({ draft with payload }, some (.bool true))
    | none => (draft, some (.bool false))
  | remove field =>
    ({ draft with payload := draft.payload.removeField field },
      some (orNull (draft.payload.get? field)))
  | add field value => ({ draft with payload := draft.payload.addField field value }, none)
  | copy source target =>
    ({ draft with payload := draft.payload.addField target (orNull (draft.payload.get? source)) },
      none)
  | getString field => (draft, some (stringOrNull (draft.payload.get? field)))
  | renameMetadata source target =>
    match Fields.rename? draft.metadata.fields source target with
    | some fields => ({ draft with metadata := ⟨fields⟩ }, some (.bool true))
    | none => (draft, some (.bool false))
  | removeMetadata key =>
    ({ draft with metadata := draft.metadata.erase key }, some (orNull (draft.metadata.get? key)))
  | addMetadata key value => ({ draft with metadata := draft.metadata.insert key value }, none)
  | getMetadataString key => (draft, some (stringOrNull (draft.metadata.get? key)))
  | locate =>
    (draft, some (.arr [.str draft.id.name, .str draft.stream.name, .int draft.version.toInt,
      .int draft.sequence.toInt]))
  | _ => (draft, none)

/-- A part of a split. -/
def part (draft : Draft) (part : SplitPart) : Draft :=
  let payload := match part.payload with
    | .given payload => payload
    | .field name => .obj [(name, orNull (draft.payload.get? name))]
  draft.split part.index part.typeName payload

/-- The notes of a list of edits and what comes out. -/
def run : List Edit → Draft → List Json × Outcome (List Draft)
  | [], draft => ([], .ok [draft])
  | .require field :: rest, draft =>
    if (draft.payload.get? field).isSome then run rest draft
    else ([], .error (.configuration (draft.typeName ++ " without " ++ field)))
  | .fail error :: _, _ => ([], .error error)
  | .drop :: _, _ => ([], .ok [])
  | .copies count :: _, draft => ([], .ok (List.replicate count draft))
  | .split parts :: _, draft => ([], .ok (parts.map (part draft)))
  | edit :: rest, draft =>
    let (draft, note) := edit.apply draft
    let (notes, outcome) := run rest draft
    (note.toList ++ notes, outcome)

end Edit

/-- A scripted upcaster. -/
structure UpcastScript where
  name : String
  support : Support
  edits : List Edit
  deriving Repr, DecidableEq, Inhabited

/-- The upcaster of a script. -/
def UpcastScript.upcaster (script : UpcastScript) : Upcaster :=
  { name := script.name, supports := script.support.admits,
    upcast := fun draft => (Edit.run script.edits draft).2,
    notes := fun draft => (Edit.run script.edits draft).1 }

/-- The chain of a list of scripts. -/
def UpcastChain.ofScripts (scripts : List UpcastScript) : UpcastChain :=
  ⟨scripts.map UpcastScript.upcaster⟩

end EventJournal
