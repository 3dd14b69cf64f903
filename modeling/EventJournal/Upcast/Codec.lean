import EventJournal.Error.Codec
import EventJournal.Upcast.Script

/-!
# JSON form of scripted upcasters

A script is an object: under `on` what it supports, under `do` its edits, each a list of a verb and its
arguments, and perhaps a name. One that supports a single type has the name of the type.
-/

namespace EventJournal

/-- What a script supports, and the name that follows from it. -/
def Support.read? (value : Json) : Option (Support × Option String) :=
  match value with
  | .obj [("type", .str name)] => some (.type name, some name)
  | .obj [("prefix", .str start)] => some (.typeStartsWith start, none)
  | .obj [("has_field", .str field)] => some (.hasField field, none)
  | .obj [("has_meta", .str key)] => some (.hasMetadata key, none)
  | .obj [("any", .bool yes)] => some (.always yes, none)
  | _ => none

/-- A part of a split. -/
def SplitPart.read? (value : Json) : Option SplitPart := do
  let payload : SplitPayload := match value.get? "payload", (value.member "field").asStr? with
    | none, some field => .field field
    | payload, _ => .given (payload.getD .null)
  pure ⟨← (value.member "index").nat?, ← (value.member "type").asStr?, payload⟩

/-- An edit. -/
def Edit.read? (value : Json) : Option Edit :=
  match value with
  | .arr [.str "set_type", .str name] => some (.setType name)
  | .arr [.str "rename", .str source, .str target] => some (.rename source target)
  | .arr [.str "remove", .str field] => some (.remove field)
  | .arr [.str "add", .str field, value] => some (.add field value)
  | .arr [.str "copy", .str source, .str target] => some (.copy source target)
  | .arr [.str "get_str", .str field] => some (.getString field)
  | .arr [.str "meta_rename", .str source, .str target] => some (.renameMetadata source target)
  | .arr [.str "meta_remove", .str key] => some (.removeMetadata key)
  | .arr [.str "meta_add", .str key, value] => some (.addMetadata key value)
  | .arr [.str "meta_get_str", .str key] => some (.getMetadataString key)
  | .arr [.str "where"] => some .locate
  | .arr [.str "require", .str field] => some (.require field)
  | .arr [.str "fail", error] => (StoreError.read? error).map .fail
  | .arr [.str "drop"] => some .drop
  | .arr [.str "repeat", count] => count.nat?.map .copies
  | .arr [.str "split", parts] => (parts.list? SplitPart.read?).map .split
  | _ => none

/-- A script. -/
def UpcastScript.read? (value : Json) : Option UpcastScript := do
  let (support, name) ← Support.read? (value.member "on")
  let given ← (value.member "name").orElse Json.asStr? "matching"
  pure ⟨name.getD given, support, ← (value.member "do").list? Edit.read?⟩

/-- A chain of scripts. -/
def UpcastChain.read? (value : Json) : Option UpcastChain :=
  (value.list? UpcastScript.read?).map UpcastChain.ofScripts

end EventJournal
