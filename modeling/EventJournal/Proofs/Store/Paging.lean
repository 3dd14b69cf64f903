import EventJournal.Proofs.Feed.Journal
import EventJournal.Proofs.Store.Trail

/-!
# Reading page by page

A read with a greatest count gives a page: the first records beyond its cursor, in its direction. A
reader goes on from the position of the last record it received, and stops at an empty page. What makes
this lose and repeat nothing is the order of positions: a page cuts a read without a greatest count at a
place, and the read beyond the last record of the page is what is left after the cut.

* `Pager.unread` — what a read without a greatest count finds beyond a position.
* `Pager.unread_cursor` — when a page was read, the rest is unread.
* `Pager.readsOut_iff` — page after page comes to what was unread at first.
* `pages_eq_read` — the main statement: so it does for one unlimited read of any stream, in both
  directions; and what lies between two positions is the same read forward and, reversed, backward.
-/

namespace EventJournal

open MemoryStore

/-! ## Directions -/

namespace Direction

/-- A list in the order in which a read of a direction goes through it. -/
def arrange {α : Type} (direction : Direction) (items : List α) : List α :=
  match direction with
  | .forward => items
  | .backward => items.reverse

/-- Where a read of all there is begins. -/
def origin : Direction → Position
  | forward => .start
  | backward => .last

/-- Whether a read comes by one position before another. -/
def Precedes (direction : Direction) (a b : Position) : Prop :=
  match direction with
  | forward => a < b
  | backward => b < a

instance (direction : Direction) (a b : Position) : Decidable (direction.Precedes a b) :=
  match direction with
  | forward => inferInstanceAs (Decidable (a < b))
  | backward => inferInstanceAs (Decidable (b < a))

variable {direction : Direction} {a b c : Position}

theorem Precedes.irrefl : ¬ direction.Precedes a a := by
  cases direction <;> exact Std.lt_irrefl

theorem Precedes.trans (hab : direction.Precedes a b) (hbc : direction.Precedes b c) :
    direction.Precedes a c := by
  cases direction with
  | forward => exact Std.lt_trans hab hbc
  | backward => exact Std.lt_trans hbc hab

theorem mem_arrange {α : Type} {items : List α} {item : α} :
    item ∈ direction.arrange items ↔ item ∈ items := by
  cases direction with
  | forward => exact Iff.rfl
  | backward => exact List.mem_reverse

end Direction

/-- A read admits what lies beyond its position in its direction. -/
theorem ReadOptions.admitsPosition_iff {options : ReadOptions} {position : Position} :
    options.admitsPosition position = true ↔
      options.direction.Precedes options.position position := by
  rw [admitsPosition]
  cases options.direction <;> simp [Direction.Precedes]

theorem selectRecords_eq (stream : StreamId) (records : List Record) (options : ReadOptions) :
    selectRecords stream records options
      = options.limit ((options.direction.arrange records).filter (options.admits stream)) := by
  rw [selectRecords]
  cases options.direction <;> rfl

/-! ## Readers -/

/-- What a reader asks for, page by page. -/
structure Pager where
  stream : StreamId
  direction : Direction
  filter : Option TypeFilter
  /-- The greatest count of a page. -/
  count : Nat
  deriving Repr, DecidableEq, Inhabited

namespace Pager

/-- Where a reader goes on: at the position of the last record that it received. -/
def cursor (pager : Pager) (received : List Record) : Position :=
  cursorAfter pager.stream pager.direction.origin received

/-- The options of a read that goes on from a position. -/
def options (pager : Pager) (position : Position) (maxCount : Option Nat) : ReadOptions :=
  ⟨position, pager.direction, maxCount, pager.filter⟩

/-- The next page. -/
def page (pager : Pager) (store : MemoryStore) (received : List Record) : Outcome (List Record) :=
  (store.read pager.stream (pager.options (pager.cursor received) (some pager.count))).map (·.records)

/-- A reader who received some records, and then reads page after page until one is empty, received these
in the end. -/
inductive ReadsOut (pager : Pager) (store : MemoryStore) : List Record → List Record → Prop where
  | done {received : List Record} (read : pager.page store received = .ok []) :
      ReadsOut pager store received received
  | more {received page whole : List Record} (read : pager.page store received = .ok page)
      (nonempty : page ≠ []) (rest : ReadsOut pager store (received ++ page) whole) :
      ReadsOut pager store received whole

/-- What a read without a greatest count finds beyond a position. -/
def unread (pager : Pager) (store : MemoryStore) (position : Position) : List Record :=
  selectRecords pager.stream (store.readable pager.stream) (pager.options position none)

/-- A stream that can be read: it exists, or is the global one. -/
def Reaches (pager : Pager) (store : MemoryStore) : Prop :=
  (pager.stream.isGlobal || (store.version? pager.stream).isSome) = true

variable {pager : Pager} {store : MemoryStore} {position : Position} {received : List Record}

theorem mem_unread {record : Record} :
    record ∈ pager.unread store position ↔ record ∈ store.readable pager.stream ∧
      pager.direction.Precedes position (record.positionIn pager.stream) ∧
      admitsType pager.filter record.typeName = true := by
  rw [unread, selectRecords_eq]
  show record ∈ List.filter _ _ ↔ _
  rw [List.mem_filter, Direction.mem_arrange, ReadOptions.admits, Bool.and_eq_true,
    ReadOptions.admitsPosition_iff]
  rfl

theorem read_eq (reaches : pager.Reaches store) (position : Position) :
    store.read pager.stream (pager.options position none)
      = .ok ⟨pager.stream, pager.unread store position⟩ :=
  if_pos reaches

/-- A page is a front part of what is unread. -/
theorem page_eq (reaches : pager.Reaches store) (received : List Record) :
    pager.page store received
      = .ok ((pager.unread store (pager.cursor received)).take pager.count) := by
  have hread : store.read pager.stream (pager.options (pager.cursor received) (some pager.count))
      = .ok _ := if_pos reaches
  rw [page, hread]
  rfl

theorem cursor_append (pager : Pager) (received page : List Record) :
    pager.cursor (received ++ page)
      = cursorAfter pager.stream (pager.cursor received) page :=
  cursorAfter_append ..

/-! ## Cutting at a page -/

/-- What is unread stands in the order of the read. -/
theorem unread_ordered (sound : store.Sound) (position : Position) :
    (pager.unread store position).Pairwise fun a b =>
      pager.direction.Precedes (a.positionIn pager.stream) (b.positionIn pager.stream) := by
  have hordered := sound.readable_ordered pager.stream
  rw [unread, selectRecords_eq]
  refine List.Pairwise.filter _ ?_
  show (pager.direction.arrange _).Pairwise _
  cases pager.direction with
  | forward => exact hordered
  | backward => exact List.pairwise_reverse.mpr hordered

/-- What is unread further on is what is left of the read there. -/
theorem unread_of_precedes {further : Position} (h : pager.direction.Precedes position further) :
    pager.unread store further = (pager.unread store position).filter fun record =>
      pager.direction.Precedes further (record.positionIn pager.stream) := by
  rw [unread, unread, selectRecords_eq, selectRecords_eq]
  show List.filter _ _ = List.filter _ (List.filter _ _)
  rw [List.filter_filter]
  refine List.filter_congr fun record _ => ?_
  rw [Bool.eq_iff_iff, Bool.and_eq_true, decide_eq_true_iff, ReadOptions.admits, ReadOptions.admits,
    Bool.and_eq_true, Bool.and_eq_true, ReadOptions.admitsPosition_iff, ReadOptions.admitsPosition_iff]
  constructor
  · rintro ⟨hbeyond, htype⟩
    exact ⟨hbeyond, h.trans hbeyond, htype⟩
  · rintro ⟨hbeyond, -, htype⟩
    exact ⟨hbeyond, htype⟩

/-- When a page was read, the rest is unread. -/
theorem unread_cursor (sound : store.Sound) (position : Position) (count : Nat) :
    pager.unread store
        (cursorAfter pager.stream position ((pager.unread store position).take count))
      = (pager.unread store position).drop count := by
  have hordered := pager.unread_ordered sound position
  have hsplit := List.take_append_drop count (pager.unread store position)
  cases hlast : ((pager.unread store position).take count).getLast? with
  | none =>
    -- the page is empty, so the cursor stays and nothing was cut off
    have hpage := List.getLast?_eq_none_iff.mp hlast
    rw [hpage, List.nil_append] at hsplit
    rw [hpage, hsplit]
    rfl
  | some last =>
    have hlastMem : last ∈ (pager.unread store position).take count := List.mem_of_getLast? hlast
    have hbeyond := (mem_unread.mp (List.mem_of_mem_take hlastMem)).2.1
    rw [cursorAfter, hlast, Option.map_some, Option.getD_some, unread_of_precedes hbeyond]
    rw [← hsplit] at hordered
    obtain ⟨hpage, -, hcut⟩ := List.pairwise_append.mp hordered
    obtain ⟨earlier, hearlier⟩ := List.getLast?_eq_some_iff.mp hlast
    conv_lhs => rw [← hsplit, List.filter_append]
    -- of the page nothing lies beyond its last record, of the rest everything does
    have hnone : ((pager.unread store position).take count).filter (fun record =>
        pager.direction.Precedes (last.positionIn pager.stream) (record.positionIn pager.stream))
          = [] := by
      refine List.filter_eq_nil_iff.mpr fun record hrecord hprecedes => ?_
      have hprecedes := of_decide_eq_true hprecedes
      rw [hearlier] at hrecord hpage
      rcases List.mem_append.mp hrecord with hold | hself
      · have hback := (List.pairwise_append.mp hpage).2.2 record hold last List.mem_cons_self
        exact Direction.Precedes.irrefl (hprecedes.trans hback)
      · rw [List.mem_singleton.mp hself] at hprecedes
        exact Direction.Precedes.irrefl hprecedes
    have hall : ((pager.unread store position).drop count).filter (fun record =>
        pager.direction.Precedes (last.positionIn pager.stream) (record.positionIn pager.stream))
          = (pager.unread store position).drop count := by
      refine List.filter_eq_self.mpr fun record hrecord => ?_
      exact decide_eq_true (hcut last hlastMem record hrecord)
    rw [hnone, hall, List.nil_append]

/-- Page after page comes to what was unread at first. -/
theorem readsOut_iff (sound : store.Sound) (reaches : pager.Reaches store)
    (positive : 0 < pager.count) {whole : List Record} :
    pager.ReadsOut store received whole ↔
      whole = received ++ pager.unread store (pager.cursor received) := by
  constructor
  · intro h
    induction h with
    | @done received read =>
      rw [page_eq reaches, Except.ok.injEq, List.take_eq_nil_iff] at read
      rw [read.resolve_left (Nat.ne_of_gt positive), List.append_nil]
    | @more received page whole read nonempty rest ih =>
      rw [page_eq reaches, Except.ok.injEq] at read
      rw [ih, cursor_append, ← read, unread_cursor sound, List.append_assoc, List.take_append_drop]
  · rintro rfl
    -- each page that is not empty leaves less unread
    induction hleft : (pager.unread store (pager.cursor received)).length using Nat.strongRecOn
      generalizing received with
    | _ left ih =>
      by_cases hempty : pager.unread store (pager.cursor received) = []
      · rw [hempty, List.append_nil]
        refine .done ?_
        rw [page_eq reaches, hempty, List.take_nil]
      · have hlength := List.length_pos_of_ne_nil hempty
        refine .more (page_eq reaches received) ?_ ?_
        · rw [Ne, List.take_eq_nil_iff]
          exact not_or.mpr ⟨Nat.ne_of_gt positive, hempty⟩
        · have hrest := @ih _ ?_ (received
            ++ (pager.unread store (pager.cursor received)).take pager.count) rfl
          · rw [cursor_append, unread_cursor sound, List.append_assoc, List.take_append_drop] at hrest
            exact hrest
          · rw [cursor_append, unread_cursor sound, List.length_drop, ← hleft]
            omega

/-- A stream that exists, and the global one, can be read. -/
theorem reaches_of_known (known : pager.stream = .global ∨ store.exists? pager.stream = true) :
    pager.Reaches store := by
  rw [Reaches, Bool.or_eq_true]
  by_cases hglobal : pager.stream.isGlobal = true
  · exact .inl hglobal
  · refine .inr ?_
    have hexists := known.resolve_left fun h => hglobal (StreamId.isGlobal_iff.mpr h)
    rw [exists?, if_neg hglobal] at hexists
    exact hexists

/-- What lies between two positions is the same read forward and, reversed, backward. -/
theorem between_eq (stream : StreamId) (records : List Record) (filter : Option TypeFilter)
    (p q : Position) :
    (selectRecords stream records ⟨q, .backward, none, filter⟩).filter
        (fun record => p < record.positionIn stream)
      = ((selectRecords stream records ⟨p, .forward, none, filter⟩).filter
          fun record => record.positionIn stream < q).reverse := by
  rw [selectRecords_eq, selectRecords_eq]
  show List.filter _ (List.filter _ records.reverse)
    = (List.filter _ (List.filter _ records)).reverse
  rw [List.filter_filter, List.filter_filter, List.filter_reverse]
  refine congrArg List.reverse (List.filter_congr fun record _ => ?_)
  -- both reads ask for the same three things
  show (decide (p < _) && (decide (_ < q) && _)) = (decide (_ < q) && (decide (p < _) && _))
  exact Bool.and_left_comm ..

/-- **Page by page is all at once**: in every state that the store can be in, a reader of a stream that
exists, or of the global one, who goes on from the last record of each page until a page is empty, comes
to an end and has received exactly what one read without a greatest count gives; and between any two
positions a backward read gives the forward read reversed. -/
theorem pages_eq_read (actions : List Journal.Action)
    (few : ((Journal.empty.appended actions).length : Int) < Int64.maxValue.toInt) (pager : Pager)
    (positive : 0 < pager.count)
    (known : pager.stream = .global ∨
      (Journal.empty.run actions).store.exists? pager.stream = true) :
    let store := (Journal.empty.run actions).store
    (∃ whole, store.read pager.stream (pager.options pager.direction.origin none)
        = .ok ⟨pager.stream, whole⟩ ∧
      ∀ received, pager.ReadsOut store [] received ↔ received = whole) ∧
      ∀ p q, ∃ forward backward,
        store.read pager.stream ⟨p, .forward, none, pager.filter⟩ = .ok ⟨pager.stream, forward⟩ ∧
        store.read pager.stream ⟨q, .backward, none, pager.filter⟩ = .ok ⟨pager.stream, backward⟩ ∧
        (backward.filter fun record => p < record.positionIn pager.stream)
          = (forward.filter fun record => record.positionIn pager.stream < q).reverse := by
  intro store
  obtain ⟨sound, -⟩ := Journal.sound_run_empty actions few
  have reaches : pager.Reaches store := reaches_of_known known
  constructor
  · refine ⟨_, read_eq reaches _, fun received => ?_⟩
    exact readsOut_iff sound reaches positive
  · intro p q
    exact ⟨_, _, if_pos reaches, if_pos reaches, between_eq ..⟩

/-- A stream that was truncated and one that was deleted and started over. -/
def pagedActions : List Journal.Action :=
  [.write (.append ⟨"a"⟩ [⟨⟨"1"⟩, "u", .null, .empty⟩, ⟨⟨"2"⟩, "t", .null, .empty⟩,
      ⟨⟨"3"⟩, "u", .null, .empty⟩] none default),
    .subscribe .global .all,
    .write (.truncate ⟨"a"⟩ ⟨1⟩ default ⟨"m"⟩),
    .write (.append ⟨"b"⟩ [⟨⟨"4"⟩, "u", .null, .empty⟩] none default),
    .write (.delete ⟨"b"⟩ default ⟨"n"⟩),
    .write (.append ⟨"b"⟩ [⟨⟨"4"⟩, "u", .null, .empty⟩] none default)]

/-- Reads the global stream backward in pages of two, one type left out. -/
def pairwisePager : Pager := ⟨.global, .backward, some (.exclude ["t"]), 2⟩

/-- Two pages of two records, an empty one, and there they are. -/
theorem pages_eq_read_sample :
    ((Journal.empty.appended pagedActions).length : Int) < Int64.maxValue.toInt ∧
      0 < pairwisePager.count ∧ pairwisePager.stream = .global ∧
      ∃ whole, (Journal.empty.run pagedActions).store.read .global
          ⟨.last, .backward, none, some (.exclude ["t"])⟩ = .ok ⟨.global, whole⟩ ∧
        whole.map (·.sequence.toInt) = [7, 6, 4, 3] ∧
        pairwisePager.ReadsOut (Journal.empty.run pagedActions).store [] whole := by
  have few : ((Journal.empty.appended pagedActions).length : Int) < Int64.maxValue.toInt := by decide
  obtain ⟨⟨whole, hread, hiff⟩, -⟩ := pages_eq_read pagedActions few pairwisePager (by decide) (.inl rfl)
  refine ⟨few, by decide, rfl, whole, hread, ?_, (hiff whole).mpr rfl⟩
  have hsame : (Journal.empty.run pagedActions).store.read .global
      ⟨.last, .backward, none, some (.exclude ["t"])⟩ = .ok ⟨.global, _⟩ := rfl
  cases hread.symm.trans hsame
  decide

end Pager

end EventJournal
