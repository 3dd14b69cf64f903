import EventJournal.Proofs.Store.Paging

/-!
# A reader among writers

A reader pages forward through the global stream, and between any two of its pages others append,
truncate and delete. The stream changes under its cursor, but only in two ways: records go, and new ones
come beyond all sequence numbers that were given out. So behind the cursor nothing is left that the reader
did not receive, and a page that comes back empty tells it that it is abreast of the writers.

* `Sound.onward_global` — on the global stream every write but a clear goes onward, the deletion of a
  stream included.
* `Gapless` — the invariant: what is stored up to the cursor was received. `Gapless.write` and
  `Gapless.page` keep it.
* `reading_loses_nothing` — the main statement.
-/

namespace EventJournal

open MemoryStore

/-- On the global stream every write but a clear goes onward. -/
theorem MemoryStore.Sound.onward_global {store : MemoryStore} (h : Sound store) {write : Write}
    (hc : write ≠ .clear)
    (room : store.nextSequence.toInt + (write.appended store).length ≤ Int64.maxValue.toInt) :
    Onward .global store (write.after store) := by
  by_cases spares : write.Spares .global
  · exact h.onward spares room
  · cases write with
    | append stream events expected now => exact absurd trivial spares
    | truncate stream before now fresh => exact absurd trivial spares
    | clear => exact absurd rfl hc
    | delete stream now fresh =>
      -- the global stream itself is not deleted
      obtain rfl : stream = .global := not_not.mp spares
      show Onward .global store (store.delete .global now fresh).state
      rw [delete_state, if_neg fun removable => removable.1 rfl]
      exact .refl _ _

/-! ## Readers -/

/-- A reader who pages forward through a stream. -/
def Pager.following (stream : StreamId) (filter : Option TypeFilter) (count : Nat) : Pager :=
  ⟨stream, .forward, filter, count⟩

/-- A store, and what its reader received so far. -/
structure ReaderView where
  store : MemoryStore
  received : List Record
  deriving Repr, DecidableEq, Inhabited

namespace ReaderView

/-- What may happen next. -/
inductive Action where
  | write (call : Write)
  /-- The reader reads its next page. -/
  | page
  deriving Repr, DecidableEq, Inhabited

/-- The store is not cleared. -/
def Action.Steady : Action → Prop
  | .write call => call ≠ .clear
  | .page => True

instance (action : Action) : Decidable action.Steady :=
  match action with
  | .write call => inferInstanceAs (Decidable (call ≠ .clear))
  | .page => inferInstanceAs (Decidable True)

/-- The write that an action makes. -/
def Action.call? : Action → Option Write
  | .write call => some call
  | .page => none

/-- The view after something happened; a page that cannot be read gives nothing. -/
def step (pager : Pager) (view : ReaderView) : Action → ReaderView
  | .write call => { view with store := call.after view.store }
  | .page =>
    let page := (pager.page view.store view.received).toOption.getD []
    { view with received := view.received ++ page }

/-- The view after a list of happenings. -/
def run (pager : Pager) (view : ReaderView) : List Action → ReaderView
  | [] => view
  | action :: rest => (view.step pager action).run pager rest

/-! ## Nothing is left behind the cursor -/

/-- What a reader received stands in order, and up to its cursor nothing of its types is stored that it
did not receive. -/
structure Gapless (pager : Pager) (view : ReaderView) : Prop where
  ordered : view.received.Pairwise (·.positionIn pager.stream < ·.positionIn pager.stream)
  reached : (pager.cursor view.received).toInt ≤ view.store.horizon pager.stream
  complete : ∀ record ∈ view.store.readable pager.stream,
    admitsType pager.filter record.typeName = true →
      record.positionIn pager.stream ≤ pager.cursor view.received → record ∈ view.received

section

variable {pager : Pager} {view : ReaderView} {stream : StreamId} {filter : Option TypeFilter}
  {count : Nat}

/-- A reader who received nothing begins before all that is stored. -/
theorem gapless_start {store : MemoryStore} (sound : store.Sound) :
    Gapless (.following stream filter count) ⟨store, []⟩ where
  ordered := .nil
  reached := sound.start_le_horizon stream
  complete := by
    intro record hrecord _ hle
    have hstored := (mem_readable.mp hrecord).1
    have hlt := start_lt_positionIn (sound.numbered record hstored).1 (sound.positive record hstored)
      stream
    exact absurd hlt (Std.not_lt.mpr hle)

/-- What is new lies beyond the cursor. -/
theorem Gapless.write (h : Gapless pager view) {store : MemoryStore}
    (onward : Onward pager.stream view.store store) : Gapless pager { view with store } where
  ordered := h.ordered
  reached := Int.le_trans h.reached onward.horizon
  complete := by
    intro record hrecord htype hle
    rcases onward.fresh record hrecord with hold | ⟨hbeyond, -⟩
    · exact h.complete record hold htype hle
    · -- a fresh record beyond the horizon is not behind the cursor
      have hreached := h.reached
      change _ ≤ pager.cursor view.received at hle
      rw [Position.le_iff_toInt] at hle
      omega

/-- A page takes the cursor on, and leaves nothing out on the way. -/
theorem Gapless.page (h : Gapless (.following stream filter count) view)
    (sound : view.store.Sound)
    (reaches : (Pager.following stream filter count).Reaches view.store) :
    Gapless (.following stream filter count) (view.step (.following stream filter count) .page) := by
  generalize hpager : Pager.following stream filter count = pager at h reaches
  have hstep : view.step pager .page = { view with received := view.received
      ++ (pager.unread view.store (pager.cursor view.received)).take pager.count } := by
    rw [step, Pager.page_eq reaches]
    rfl
  have hordered := pager.unread_ordered sound (pager.cursor view.received)
  have hrest : pager.unread view.store _ = _ :=
    Pager.unread_cursor sound (pager.cursor view.received) pager.count
  have hsplit := List.take_append_drop pager.count
    (pager.unread view.store (pager.cursor view.received))
  rw [← hrest] at hsplit
  rw [hstep]
  subst hpager
  constructor
  case ordered =>
    refine List.pairwise_append.mpr ⟨h.ordered, hordered.sublist (List.take_sublist _ _), ?_⟩
    intro old hold new hnew
    have hle := le_last_position (h.ordered.imp Std.le_of_lt) Position.start hold
    have hbeyond := (Pager.mem_unread.mp (List.mem_of_mem_take hnew)).2.1
    exact Std.lt_of_le_of_lt hle hbeyond
  case reached =>
    show (Pager.cursor _ (_ ++ _)).toInt ≤ _
    rw [Pager.cursor_append, cursorAfter]
    cases hlast : ((Pager.unread _ view.store _).take _).getLast? with
    | none => exact h.reached
    | some last =>
      have hmem := List.mem_of_mem_take (List.mem_of_getLast? hlast)
      exact sound.reached (Pager.mem_unread.mp hmem).1
  case complete =>
    intro record hrecord htype hle
    rw [Pager.cursor_append] at hle
    by_cases hold : record.positionIn stream
        ≤ (Pager.following stream filter count).cursor view.received
    · exact List.mem_append_left _ (h.complete record hrecord htype hold)
    · have hunread := Pager.mem_unread.mpr ⟨hrecord, Std.not_le.mp hold, htype⟩
      rw [← hsplit] at hunread
      -- beyond the old cursor a record is on the page, or unread still
      rcases List.mem_append.mp hunread with hpage | hleft
      · exact List.mem_append_right _ hpage
      · exact absurd (Pager.mem_unread.mp hleft).2.1 (Std.not_lt.mpr hle)

end

/-! ## Runs -/

/-- Along a run in which nobody clears the store nothing is left behind. -/
theorem Gapless.run {view : ReaderView} {filter : Option TypeFilter} {count : Nat}
    (h : Gapless (.following .global filter count) view) (actions : List Action)
    (steady : ∀ action ∈ actions, action.Steady)
    (ample : Ample view.store (actions.filterMap Action.call?)) :
    Gapless (.following .global filter count)
      (view.run (.following .global filter count) actions) := by
  induction actions generalizing view with
  | nil => exact h
  | cons action rest ih =>
    have hrest : ∀ action ∈ rest, action.Steady := fun action haction =>
      steady action (List.mem_cons_of_mem _ haction)
    cases action with
    | write call =>
      have hc : call ≠ .clear := steady _ List.mem_cons_self
      have honward := ample.sound.onward_global hc ample.room
      exact ih (h.write honward) hrest ample.rest
    | page => exact ih (h.page ample.sound rfl) hrest ample

/-- **Reading among writers loses nothing**: whatever was written to a store before, and whatever others
append, truncate and delete between two pages, a reader who pages forward through the global stream
receives records in strictly increasing order of their sequence numbers, none of them twice; each page can
be read; and when one is empty, the reader has received every record then stored that its filter lets
through. -/
theorem reading_loses_nothing (before : List Write) (actions : List Action)
    (steady : ∀ action ∈ actions, action.Steady)
    (few : ((appendedBy (before ++ actions.filterMap Action.call?) empty).length : Int)
      < Int64.maxValue.toInt)
    (filter : Option TypeFilter) (count : Nat) (positive : 0 < count) :
    let pager := Pager.following .global filter count
    let view := ReaderView.run pager ⟨empty.run before, []⟩ actions
    view.received.Pairwise (·.sequence < ·.sequence) ∧ view.received.Nodup ∧
      ∃ page, pager.page view.store view.received = .ok page ∧
        (page = [] → ∀ record ∈ view.store.records,
          admitsType filter record.typeName = true → record ∈ view.received) := by
  intro pager view
  have hample := (Ample.empty few).run
  have hgapless : Gapless pager view := (gapless_start hample.sound).run actions steady hample
  have hordered : view.received.Pairwise (·.sequence < ·.sequence) := hgapless.ordered
  refine ⟨hordered, ?_, ?_⟩
  · refine hordered.imp fun {a b} hlt => ?_
    rintro rfl
    exact Int.lt_irrefl _ (SequenceNumber.lt_iff_toInt.mp hlt)
  · have reaches : pager.Reaches view.store := Pager.reaches_of_known (.inl rfl)
    refine ⟨_, Pager.page_eq reaches view.received, fun hempty record hrecord htype => ?_⟩
    have hreadable : record ∈ view.store.readable .global := by
      rw [readable_global]
      exact hrecord
    by_cases hle : record.positionIn .global ≤ pager.cursor view.received
    · exact hgapless.complete record hreadable htype hle
    · -- beyond the cursor it would be unread, but nothing is
      have hunread : record ∈ pager.unread view.store (pager.cursor view.received) :=
        Pager.mem_unread.mpr ⟨hreadable, Std.not_le.mp hle, htype⟩
      have hnone := (List.take_eq_nil_iff.mp hempty).resolve_left (Nat.ne_of_gt positive)
      rw [hnone] at hunread
      cases hunread

/-- Between the pages one stream is truncated, another deleted and started over. -/
def interleaved : List Action :=
  [.page, .write (.truncate ⟨"a"⟩ ⟨2⟩ default ⟨"m"⟩), .page,
    .write (.delete ⟨"b"⟩ default ⟨"n"⟩),
    .write (.append ⟨"b"⟩ [⟨⟨"4"⟩, "u", .null, .empty⟩, ⟨⟨"5"⟩, "t", .null, .empty⟩] none default),
    .page, .page]

/-- What is stored before the first page. -/
def stocked : List Write :=
  [.append ⟨"a"⟩ [⟨⟨"1"⟩, "u", .null, .empty⟩, ⟨⟨"2"⟩, "u", .null, .empty⟩] none default,
    .append ⟨"b"⟩ [⟨⟨"3"⟩, "t", .null, .empty⟩, ⟨⟨"4"⟩, "u", .null, .empty⟩] none default]

theorem reading_loses_nothing_sample :
    let pager := Pager.following .global (some (.exclude ["t"])) 2
    let view := ReaderView.run pager ⟨empty.run stocked, []⟩ interleaved
    (∀ action ∈ interleaved, action.Steady) ∧
      ((appendedBy (stocked ++ interleaved.filterMap Action.call?) empty).length : Int)
        < Int64.maxValue.toInt ∧
      view.received.map (·.sequence.toInt) = [1, 2, 4, 5, 6, 7] ∧
      view.store.records.map (·.sequence.toInt) = [5, 6, 7, 8] ∧
      ∀ record ∈ view.store.records,
        admitsType (some (.exclude ["t"])) record.typeName = true → record ∈ view.received := by
  intro pager view
  have steady : ∀ action ∈ interleaved, action.Steady := by decide
  have few : ((appendedBy (stocked ++ interleaved.filterMap Action.call?) empty).length : Int)
      < Int64.maxValue.toInt := by decide
  obtain ⟨-, -, page, hpage, hall⟩ :=
    reading_loses_nothing stocked interleaved steady few (some (.exclude ["t"])) 2 (by decide)
  have hlast : pager.page view.store view.received = .ok [] := by decide
  rw [hlast] at hpage
  cases hpage
  exact ⟨steady, few, by decide, by decide, hall rfl⟩

end ReaderView

end EventJournal
