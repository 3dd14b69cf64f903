import EventJournal.Event.Registry

/-!
# Handlers

A handler is what a processor calls for each record. It keeps a state of its own, and a failure is its
own wordings, the outermost first.

A handler that publishes typed events decodes each record first. It skips the types it does not know,
among them the markers of the global stream.
-/

namespace EventJournal

/-- Work done for each record, over a state `η`. -/
abbrev Handler (η : Type) := Record → η → Except (List String) Unit × η

namespace Handler

/-- The wordings of a failure of the journal inside a handler. -/
def reasons (error : StoreError) : List String := error.message :: error.causes

/-- Decodes each record of a registered type and publishes the event with its record. -/
def publishing (registry : Registry)
    (publish : String × Json → Record → η → Except (List String) Unit × η) : Handler η :=
  fun record state =>
    if registry.contains record.typeName then
      match registry.decodeAny record with
      | .error error => (.error (reasons error), state)
      | .ok event => publish event record state
    else (.ok (), state)

/-- When a handler that publishes fails: it knows the type, and the event does not decode or is not published. -/
theorem publishing_error_iff {registry : Registry}
    {publish : String × Json → Record → η → Except (List String) Unit × η} {record : Record} {state : η}
    {why : List String} :
    (publishing registry publish record state).1 = .error why ↔
      registry.contains record.typeName = true ∧
        match registry.decodeAny record with
        | .error error => reasons error = why
        | .ok event => (publish event record state).1 = .error why := by
  unfold publishing
  cases registry.contains record.typeName with
  | false => simp
  | true => cases registry.decodeAny record <;> simp

end Handler

end EventJournal
