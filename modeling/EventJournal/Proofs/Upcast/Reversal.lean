import EventJournal.Proofs.Store.Paging
import EventJournal.Proofs.Upcast.Outputs

/-!
# Reading backward through a chain

A backward read of a stream gives the records of a forward read in reverse order. Through a chain that is
so of the groups only: the store turns the stored records round, and then each of them is upcast, into
outputs that stand in the order in which the chain makes them, whichever way the stream is read.

* `Sound.read_wholly` — a read of all there is gives what each stored record shows, in the direction of
  the read.
* `reverse_flatMap_eq_iff` — turning round a list of groups also turns round each group.
* `reversed_eq_backward_iff` — the main statement. The store after it is one where the two reads differ.
-/

namespace EventJournal

/-- What is made of some records one after another, from the last to the first, is the reverse of what is
made of them from the first to the last exactly when each of them comes to something that reads the same
both ways. -/
theorem reverse_flatMap_eq_iff {α β : Type} (outputs : α → List β) (items : List α) :
    (items.flatMap outputs).reverse = items.reverse.flatMap outputs ↔
      ∀ item ∈ items, (outputs item).reverse = outputs item := by
  induction items with
  | nil => exact ⟨nofun, fun _ => rfl⟩
  | cons item rest ih =>
    have hlast : (item :: rest).reverse.flatMap outputs
        = rest.reverse.flatMap outputs ++ outputs item := by
      rw [List.reverse_cons, List.flatMap_append, List.flatMap_singleton]
    rw [List.flatMap_cons, List.reverse_append, hlast]
    constructor
    · intro h other hother
      -- the last group is as long on both sides, so the two lists agree part by part
      obtain ⟨hrest, hitem⟩ := List.append_inj' h (List.length_reverse)
      rcases List.mem_cons.mp hother with rfl | hlater
      · exact hitem
      · exact ih.mp hrest other hlater
    · intro h
      have hrest := ih.mpr fun other hother => h other (List.mem_cons_of_mem _ hother)
      rw [hrest, h item List.mem_cons_self]

/-- A read of all there is: forward from the start or backward from the end, without a greatest count. -/
def ReadOptions.wholly (direction : Direction) (filter : Option TypeFilter) : ReadOptions :=
  match direction with
  | .forward => { ReadOptions.forward with filter }
  | .backward => { ReadOptions.backward with filter }

namespace MemoryStore

variable {store : MemoryStore} {stream : StreamId} {chain : UpcastChain} {filter : Option TypeFilter}

/-- Every stored record lies between the start and the end. -/
theorem Sound.admits_wholly (sound : store.Sound) (direction : Direction) {record : Record}
    (hrecord : record ∈ store.readable stream) :
    (ReadOptions.wholly direction none).admits stream record = true := by
  have hstored := (mem_readable.mp hrecord).1
  have hstart : Position.start < record.positionIn stream :=
    start_lt_positionIn (sound.numbered record hstored).1 (sound.positive record hstored) stream
  have hlast : record.positionIn stream < Position.last :=
    Position.lt_iff_toInt.mpr (sound.positionIn_lt hrecord)
  cases direction with
  | forward =>
    show (decide (Position.start < record.positionIn stream) && true) = true
    rw [decide_eq_true hstart, Bool.true_and]
  | backward =>
    show (decide (record.positionIn stream < Position.last) && true) = true
    rw [decide_eq_true hlast, Bool.true_and]

/-- A read of the store itself goes through all that is stored of a stream, or the stream is missing. -/
theorem Sound.read_inner (sound : store.Sound) (direction : Direction) :
    store.read stream (.wholly direction none)
      = if stream.isGlobal || (store.version? stream).isSome then
          .ok ⟨stream, direction.arrange (store.readable stream)⟩
        else .error (.streamNotFound stream) := by
  have hselect : selectRecords stream (store.readable stream) (.wholly direction none)
      = direction.arrange (store.readable stream) := by
    have hoptions : (ReadOptions.wholly direction none).direction = direction ∧
        (ReadOptions.wholly direction none).maxCount = none := by cases direction <;> exact ⟨rfl, rfl⟩
    rw [selectRecords_eq, ReadOptions.limit, hoptions.1, hoptions.2]
    exact List.filter_eq_self.mpr fun record hrecord =>
      sound.admits_wholly direction (Direction.mem_arrange.mp hrecord)
  rw [read, hselect]

/-- A read of all there is, through a chain: it gives what each stored record shows, one after another in
the direction of the read, unless the stream is missing or the chain fails on a record. -/
theorem Sound.read_wholly (sound : store.Sound) (direction : Direction) {now : Timestamp}
    {fresh : EventId} {slice : Slice} :
    ((reader (some chain) now fresh).read stream (.wholly direction filter) store).outcome = .ok slice ↔
      (stream.isGlobal || (store.version? stream).isSome) = true ∧
        (∀ record ∈ store.readable stream, chain.Accepts record) ∧
        slice = ⟨stream, (direction.arrange (store.readable stream)).flatMap (chain.shown filter)⟩ := by
  have hunfiltered : { ReadOptions.wholly direction filter with filter := none }
      = ReadOptions.wholly direction none := by cases direction <;> rfl
  have hfilter : (ReadOptions.wholly direction filter).filter = filter := by cases direction <;> rfl
  show (Answer.andThen ⟨store.read stream { ReadOptions.wholly direction filter with filter := none },
    store, []⟩ (chain.upcastSlice stream (ReadOptions.wholly direction filter).filter)).outcome
      = .ok slice ↔ _
  rw [hunfiltered, hfilter, sound.read_inner direction]
  cases hknown : (stream.isGlobal || (store.version? stream).isSome) with
  | false => exact ⟨nofun, fun h => nomatch h.1⟩
  | true =>
    simp only [if_true, Answer.andThen, UpcastChain.upcastSlice, true_and]
    constructor
    · intro h
      cases hrun : (chain.upcastRecords (direction.arrange (store.readable stream))).outcome with
      | error error =>
        rw [hrun] at h
        cases h
      | ok outputs =>
        rw [hrun] at h
        cases h
        obtain ⟨rfl, haccepts⟩ := UpcastChain.upcastRecords_ok_iff.mp hrun
        refine ⟨fun record hrecord => haccepts record (Direction.mem_arrange.mpr hrecord), ?_⟩
        exact congrArg (Slice.mk stream) List.filter_flatMap
    · rintro ⟨haccepts, rfl⟩
      have hrun := UpcastChain.upcastRecords_ok_iff.mpr ⟨rfl, fun record
        (hrecord : record ∈ direction.arrange (store.readable stream)) =>
          haccepts record (Direction.mem_arrange.mp hrecord)⟩
      rw [hrun]
      exact congrArg (fun records => Except.ok (Slice.mk stream records)) List.filter_flatMap

/-- **When a backward read is the forward read reversed**: whatever was written and whatever chain it is
read through, a stream that can be read forward can be read backward, and gives the same groups of
outputs from the last to the first. So the one is the reverse of the other exactly when what each stored
record shows reads the same both ways, as it does when that is one output or none. -/
theorem reversed_eq_backward_iff (writes : List Write)
    (few : ((appendedBy writes empty).length : Int) < Int64.maxValue.toInt) (chain : UpcastChain)
    (stream : StreamId) (filter : Option TypeFilter) (now : Timestamp) (fresh : EventId)
    (forward : Slice)
    (read : ((reader (some chain) now fresh).read stream { ReadOptions.forward with filter }
      (empty.run writes)).outcome = .ok forward) :
    ∃ backward, ((reader (some chain) now fresh).read stream { ReadOptions.backward with filter }
        (empty.run writes)).outcome = .ok backward ∧
      forward = ⟨stream, ((empty.run writes).readable stream).flatMap (chain.shown filter)⟩ ∧
      backward = ⟨stream, ((empty.run writes).readable stream).reverse.flatMap (chain.shown filter)⟩ ∧
      (forward.reversed = backward ↔ ∀ record ∈ (empty.run writes).readable stream,
        (chain.shown filter record).reverse = chain.shown filter record) := by
  obtain ⟨sound, -⟩ := Sound.run_empty writes few
  obtain ⟨hknown, haccepts, rfl⟩ := (sound.read_wholly .forward).mp read
  refine ⟨_, (sound.read_wholly .backward).mpr ⟨hknown, haccepts, rfl⟩, rfl, rfl, ?_⟩
  rw [← reverse_flatMap_eq_iff]
  exact ⟨congrArg Slice.records, congrArg (Slice.mk stream)⟩

/-- A pair, and a record that is not split. -/
def pairedWrites : List Write :=
  [.append ⟨"a"⟩ [⟨⟨"1"⟩, "pair", .null, .empty⟩, ⟨⟨"2"⟩, "t", .null, .empty⟩] none default]

/-- The parts of the pair stand in the same order both ways. -/
theorem reversed_eq_backward_iff_sample :
    ((appendedBy pairedWrites empty).length : Int) < Int64.maxValue.toInt ∧
      ∃ forward, ((reader (some .splitting) default default).read ⟨"a"⟩ .forward
          (empty.run pairedWrites)).outcome = .ok forward ∧
        forward.records.map (·.typeName) = ["left", "right", "t"] ∧
        ∃ backward, ((reader (some .splitting) default default).read ⟨"a"⟩ .backward
            (empty.run pairedWrites)).outcome = .ok backward ∧
          backward.records.map (·.typeName) = ["t", "left", "right"] ∧
          forward.reversed ≠ backward ∧
          (forward.reversed = backward ↔ ∀ record ∈ (empty.run pairedWrites).readable ⟨"a"⟩,
            (UpcastChain.splitting.shown none record).reverse
              = UpcastChain.splitting.shown none record) := by
  have few : ((appendedBy pairedWrites empty).length : Int) < Int64.maxValue.toInt := by decide
  have read : ((reader (some .splitting) default default).read ⟨"a"⟩ .forward
      (empty.run pairedWrites)).outcome = .ok _ := rfl
  obtain ⟨backward, hread, -, hbackward, hiff⟩ := reversed_eq_backward_iff pairedWrites few .splitting
    ⟨"a"⟩ none default default _ read
  refine ⟨few, _, read, by decide, backward, hread, ?_, ?_, hiff⟩
  · rw [hbackward]
    decide
  · rw [hbackward]
    intro hsame
    have htypes := congrArg (fun slice : Slice => slice.records.map (·.typeName)) hsame
    exact absurd htypes (by decide)

end MemoryStore

end EventJournal
