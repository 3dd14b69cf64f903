import EventJournal.Event.Basic

/-!
# Options of reads and subscriptions

A read goes forward or backward from a cursor and excludes the event at the cursor. A type filter
selects the listed types or leaves them out.
-/

namespace EventJournal

/-- The direction of a read. -/
inductive Direction where
  | forward
  | backward
  deriving Repr, DecidableEq, Inhabited

/-- The name of a direction. -/
def Direction.text : Direction → String
  | .forward => "forward"
  | .backward => "backward"

/-- A filter on event types. -/
inductive TypeFilter where
  /-- Only the listed types. -/
  | select (types : List String)
  /-- All types but the listed ones. -/
  | exclude (types : List String)
  deriving Repr, DecidableEq, Inhabited

/-- Whether a type passes the filter. -/
def TypeFilter.matches (filter : TypeFilter) (typeName : String) : Bool :=
  match filter with
  | .select types => types.contains typeName
  | .exclude types => !types.contains typeName

/-- Whether a type passes a filter that may be absent. -/
def admitsType (filter : Option TypeFilter) (typeName : String) : Bool :=
  filter.all (·.matches typeName)

/-- Options of a read. -/
structure ReadOptions where
  position : Position
  direction : Direction
  maxCount : Option Nat
  filter : Option TypeFilter
  deriving Repr, DecidableEq, Inhabited

namespace ReadOptions

/-- Forward from the start. -/
def forward : ReadOptions := ⟨.start, .forward, none, none⟩

/-- Backward from the end. -/
def backward : ReadOptions := ⟨.last, .backward, none, none⟩

/-- Whether a position lies strictly beyond the cursor. -/
def admitsPosition (options : ReadOptions) (position : Position) : Bool :=
  match options.direction with
  | .forward => options.position < position
  | .backward => position < options.position

/-- Whether a type passes the filter, if there is one. -/
def admitsType (options : ReadOptions) (typeName : String) : Bool :=
  EventJournal.admitsType options.filter typeName

/-- Cuts a list at the greatest count, if there is one. -/
def limit (options : ReadOptions) (items : List α) : List α :=
  match options.maxCount with
  | some count => items.take count
  | none => items

end ReadOptions

/-- Options of a subscription. -/
structure SubscribeOptions where
  /-- Delivery starts strictly after this position; after the last one, with new records only. -/
  position : Position
  filter : Option TypeFilter
  deriving Repr, DecidableEq, Inhabited

namespace SubscribeOptions

/-- From the start, all types. -/
def all : SubscribeOptions := ⟨.start, none⟩

/-- Whether a type passes the filter, if there is one. -/
def admitsType (options : SubscribeOptions) (typeName : String) : Bool :=
  EventJournal.admitsType options.filter typeName

/-- Where the records stored already are read from; `none` for new records only. -/
def backlogStart (options : SubscribeOptions) : Option Position :=
  if options.position.isLast then none else some options.position

end SubscribeOptions

end EventJournal
