import EventJournal.Event.Marker

/-!
# Reading what was written

Whatever is written as JSON is read back as it was. A structure is an object whose members are read by
name, so it is enough that every member reads back and that none is missing.

* `Json.Shape.members_obj` — when an object has the shape of a structure.
* `StreamTruncated.ofJson_toJson`, `StreamDeleted.ofJson_toJson` — markers.
-/

namespace EventJournal

/-! ## Scalars -/

/-- A signed word reads back. -/
theorem Json.Decoder.int64_ofInt64 (word : Int64) :
    Json.Decoder.int64 (Json.ofInt64 word) = .ok word := by
  have hrange : Int64.minValue.toInt ≤ word.toInt ∧ word.toInt ≤ Int64.maxValue.toInt :=
    ⟨word.minValue_le_toInt, word.toInt_le⟩
  simp only [int64, integer, Json.ofInt64, if_pos hrange, Except.map, Int64.ofInt_toInt]

theorem StreamId.ofJson_name (stream : StreamId) : StreamId.ofJson (.str stream.name) = .ok stream :=
  rfl

theorem Position.ofJson_ofInt64 (position : Position) :
    Position.ofJson (Json.ofInt64 position.value) = .ok position := by
  rw [Position.ofJson, Json.Decoder.int64_ofInt64]
  rfl

/-! ## Structures -/

namespace Json.Shape

theorem missing_of_contains {fields : Fields} {expected : List Field}
    (h : ∀ field ∈ expected, fields.contains field.name = true) : missing fields expected = .ok () := by
  induction expected with
  | nil => rfl
  | cons field rest ih =>
    have hrest := ih fun other hother => h other (List.mem_cons_of_mem _ hother)
    rw [missing, h field List.mem_cons_self, Bool.or_true, if_pos rfl, hrest]

/-- An object whose members all fit and that misses none has the shape of a structure. -/
theorem members_obj {shape : Shape} {fields : Fields}
    (fit : ∀ pair ∈ fields, ∀ field, shape.fields.find? (·.name = pair.1) = some field →
      field.check pair.2 = .ok ())
    (present : ∀ field ∈ shape.fields, fields.contains field.name = true) :
    shape.members (.obj fields) = .ok fields := by
  rw [members, (shape.visit_ok_iff fields).mpr fit]
  dsimp only
  rw [missing_of_contains present]
  rfl

end Json.Shape

/-- The check of a field passes what its decoder reads. -/
theorem Json.Field.check_required {α : Type} {name : String} {decode : Json.Decoder α} {value : Json}
    {result : α} (h : decode value = .ok result) :
    (Json.Field.required name decode).check value = .ok () := by
  show (decode value).map _ = _
  rw [h]
  rfl

/-! ## Markers -/

/-- The marker of a truncation reads back. -/
theorem StreamTruncated.ofJson_toJson (marker : StreamTruncated) :
    StreamTruncated.ofJson marker.toJson = .ok marker := by
  have hmembers : shape.members marker.toJson
      = .ok [("before_position", Json.ofInt64 marker.before.value), ("stream_id", .str marker.stream.name)] := by
    refine Json.Shape.members_obj ?_ ?_
    · intro pair hpair field hfield
      rcases List.mem_cons.mp hpair with rfl | hpair
      · cases hfield
        exact Json.Field.check_required (Position.ofJson_ofInt64 marker.before)
      · rw [List.mem_singleton.mp hpair] at hfield ⊢
        cases hfield
        exact Json.Field.check_required (StreamId.ofJson_name marker.stream)
    · intro field hfield
      simp only [shape, List.mem_cons, List.not_mem_nil, or_false] at hfield
      rcases hfield with rfl | rfl <;> rfl
  unfold ofJson
  rw [hmembers]
  show ((Position.ofJson (Json.ofInt64 marker.before.value)).bind _) = _
  rw [Position.ofJson_ofInt64]
  rfl

/-- The marker of a deletion reads back. -/
theorem StreamDeleted.ofJson_toJson (marker : StreamDeleted) :
    StreamDeleted.ofJson marker.toJson = .ok marker := by
  rfl

end EventJournal
