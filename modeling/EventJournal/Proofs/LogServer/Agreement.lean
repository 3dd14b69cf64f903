import EventJournal.Proofs.Feed.Decision
import EventJournal.Proofs.LogServer.Twin
import EventJournal.Proofs.Store.Horizon
import EventJournal.Session.Backend

/-!
# Both kinds of store give the same answers

The store in memory and the store over a log server make the same checks in different places, and the
latter sends what is left of a call through unsigned words. Each call gives the same answer on both, up
to the times of records, when both hold the same journal; and afterwards they still do.

* `Matches` — two answers are the same, and the states after them agree.
* `append_matches`, `read_matches`, `truncate_matches`, `delete_matches`, `exists_matches`,
  `bounds_matches` — one for each call.
* `replies_eq` — the main statement, for every sequence of calls.
-/

namespace EventJournal

open MemoryStore (Write)

/-- Two answers say the same, up to what is forgotten, and leave states that hold the same journal. -/
structure Matches {α β : Type} (forget : α → β) (answer : Answer MemoryStore α)
    (answer' : Answer LogModel α) : Prop where
  outcome : answer.outcome.map forget = answer'.outcome.map forget
  state : Agrees answer.state answer'.state

/-- Both answers are the same failure, or values that say the same. -/
theorem Matches.outcome_cases {α β : Type} {forget : α → β} {answer : Answer MemoryStore α}
    {answer' : Answer LogModel α} (h : Matches forget answer answer') :
    (∃ error, answer.outcome = .error error ∧ answer'.outcome = .error error) ∨
      ∃ value value', answer.outcome = .ok value ∧ answer'.outcome = .ok value' ∧
        forget value = forget value' := by
  have houtcome := h.outcome
  cases ho : answer.outcome with
  | error error =>
    cases ho' : answer'.outcome with
    | error error' =>
      rw [ho, ho'] at houtcome
      cases houtcome
      exact .inl ⟨error, rfl, rfl⟩
    | ok value' =>
      rw [ho, ho'] at houtcome
      cases houtcome
  | ok value =>
    cases ho' : answer'.outcome with
    | error error' =>
      rw [ho, ho'] at houtcome
      cases houtcome
    | ok value' =>
      rw [ho, ho'] at houtcome
      exact .inr ⟨value, value', rfl, rfl, Except.ok.inj houtcome⟩

/-- What is left of an answer that only reports success. -/
theorem Matches.done {α β : Type} {forget : α → β} {answer : Answer MemoryStore α}
    {answer' : Answer LogModel α} (h : Matches forget answer answer') :
    Matches id (answer.map fun _ => ()) (answer'.map fun _ => ()) where
  outcome := by
    show (answer.outcome.map fun _ => ()).map id = (answer'.outcome.map fun _ => ()).map id
    rcases h.outcome_cases with ⟨error, ho, ho'⟩ | ⟨value, value', ho, ho', -⟩
    · rw [ho, ho']
    · rw [ho, ho']
      rfl
  state := h.state

theorem Matches.same {α : Type} {answer : Answer MemoryStore α} {answer' : Answer LogModel α}
    (h : Matches id answer answer') : answer.outcome = answer'.outcome := by
  have houtcome := h.outcome
  rw [Except.map_id] at houtcome
  exact houtcome

section

variable {store : MemoryStore} {server : LogModel}

/-- Both refuse for the same reason. -/
theorem Matches.refused {α β : Type} {forget : α → β} (agrees : Agrees store server)
    (error : StoreError) :
    Matches forget (.refused store error : Answer MemoryStore α) (.refused server error) :=
  ⟨rfl, agrees⟩

/-! ## Appending -/

/-- The last checks of an append, and the append itself. -/
theorem send_matches (agrees : Agrees store server) (sound : store.Sound) {stream : StreamId}
    {events : List Event} (now : Timestamp) (expected : Option StreamVersion)
    (distinct : checkUnique events = .ok ()) (nonempty : events ≠ [])
    (room : store.appendChecked stream now events expected = store.add stream now events →
      store.nextSequence.toInt + events.length ≤ Int64.maxValue.toInt) :
    Matches (List.map Record.untimed) (store.appendChecked stream now events expected)
      (LogServer.send LogModel.client stream events expected server) := by
  have hfind := agrees.find?_eq events
  have hmeets := agrees.meets_iff sound stream expected
  simp only [MemoryStore.appendChecked, distinct] at room ⊢
  cases hcheck : checkExpected stream expected (store.versionOf stream) with
  | error error =>
    obtain ⟨version, hexpected, hne, rfl⟩ := MemoryStore.checkExpected_eq_error hcheck
    have hnot : LogModel.meets (.ofVersion expected) (server.head? stream) = false := by
      refine Bool.eq_false_iff.mpr fun h => hne ?_
      exact hmeets.mp h version hexpected
    have hactual := agrees.lastRevision_eq sound stream
    simp only [LogServer.send, LogModel.client, LogModel.append_of_not_meets _ hnot, hactual]
    rw [hexpected]
    exact ⟨rfl, agrees⟩
  | ok done =>
    have hmet := hmeets.mpr (MemoryStore.checkExpected_eq_ok_iff.mp hcheck)
    have hempty : events.isEmpty = false := List.isEmpty_eq_false_iff.mpr nonempty
    simp only [hcheck, hempty, Bool.false_eq_true, if_false] at room ⊢
    cases hduplicate : store.duplicate? events with
    | some event =>
      rw [hduplicate] at hfind
      simp only [LogServer.send, LogModel.client, LogModel.append_of_duplicate hmet hfind]
      exact .refused agrees _
    | none =>
      rw [hduplicate] at hfind
      simp only [hduplicate, forall_const] at room
      obtain ⟨htwins, hagrees⟩ := agrees.add sound stream now events room
      simp only [LogServer.send, LogModel.client, LogModel.append_of_fresh hmet hfind]
      refine ⟨?_, hagrees⟩
      rw [MemoryStore.add_eq]
      exact congrArg Except.ok htwins.untimed.symm

/-- An append of events, or of none with no version expected. -/
theorem append_matches (agrees : Agrees store server) (sound : store.Sound) {stream : StreamId}
    {events : List Event} (now : Timestamp) {expected : Option StreamVersion}
    (proper : events ≠ [] ∨ expected = none)
    (room : store.append stream now events expected = store.add stream now events →
      store.nextSequence.toInt + events.length ≤ Int64.maxValue.toInt) :
    Matches (List.map Record.untimed) (store.append stream now events expected)
      (LogServer.append LogModel.client stream events expected server) := by
  unfold LogServer.append
  unfold MemoryStore.append at room ⊢
  cases hwritable : ensureWritable stream "append to" with
  | error error => exact .refused agrees error
  | ok done =>
    simp only [hwritable] at room ⊢
    cases hunique : checkUnique events with
    | error error =>
      have hchecked : store.appendChecked stream now events expected = .refused store error := by
        rw [MemoryStore.appendChecked, hunique]
      rw [hchecked]
      exact .refused agrees error
    | ok done =>
      by_cases hempty : events = []
      · subst hempty
        cases proper.resolve_left fun h => h rfl
        exact ⟨rfl, agrees⟩
      · dsimp only
        rw [if_neg (by rwa [List.isEmpty_iff])]
        exact send_matches agrees sound now expected hunique hempty room

end

/-! ## Reading -/

/-- The number that a read of a stream goes by. -/
def ServerRecord.numberIn (stream : StreamId) (record : ServerRecord) : UInt64 :=
  if stream.isGlobal then record.commitPosition else record.revision

theorem Twin.toInt_positionIn {record : Record} {other : ServerRecord} (twin : Twin record other)
    (stream : StreamId) :
    (record.positionIn stream).toInt = (other.numberIn stream).toNat := by
  unfold Record.positionIn ServerRecord.numberIn
  split
  · exact twin.sequence
  · exact twin.version

/-- What a read of a stream on a log server looks at; nothing when there is no such stream. -/
def LogModel.readable? (server : LogModel) (stream : StreamId) : Option (List ServerRecord) :=
  if stream.isGlobal then some server.records
  else (server.head? stream).map fun _ => server.records.filter (·.stream = stream.name)

/-- Reading from the server changes nothing and goes through what can be read. -/
theorem readRecords_eq (stream : StreamId) (request : ReadRequest) (server : LogModel) :
    LogServer.readRecords LogModel.client stream request server
      = (.ok ((server.readable? stream).map fun others =>
          (LogModel.select others (·.numberIn stream) request).map ServerRecord.toRecord), server) := by
  unfold LogServer.readRecords LogModel.readable? ServerRecord.numberIn
  cases stream.isGlobal with
  | true => rfl
  | false =>
    show (Except.map _ (.ok ((server.head? stream).map _)), server) = _
    cases server.head? stream <;> rfl

theorem readFor_eq (operation : String) (stream : StreamId) (request : ReadRequest)
    (server : LogModel) :
    LogServer.readFor LogModel.client operation stream request server
      = .unchanged server ((server.readable? stream).map fun others =>
          (LogModel.select others (·.numberIn stream) request).map ServerRecord.toRecord) := by
  rw [LogServer.readFor, readRecords_eq]
  rfl

namespace LogModel

/-- The limit of a request cuts what it selects without one. -/
theorem select_limit (others : List ServerRecord) (number : ServerRecord → UInt64)
    (direction : Direction) (cursor : Position) (count : Nat) :
    select others number ⟨direction, cursor, some count⟩
      = (select others number ⟨direction, cursor, none⟩).take count := by
  cases direction <;> rfl

end LogModel

section

variable {store : MemoryStore} {server : LogModel}

/-- Both find a stream or not, and then look at the same records. -/
theorem Agrees.readable (agrees : Agrees store server) (stream : StreamId) :
    (stream.isGlobal || (store.version? stream).isSome) = false ∧ server.readable? stream = none ∨
      (stream.isGlobal || (store.version? stream).isSome) = true ∧
        ∃ others, server.readable? stream = some others ∧ Twins (store.readable stream) others := by
  by_cases hglobal : stream.isGlobal = true
  · right
    refine ⟨by rw [hglobal, Bool.true_or], server.records, ?_, ?_⟩
    · rw [LogModel.readable?, if_pos hglobal]
    · rw [StreamId.isGlobal_iff.mp hglobal, MemoryStore.readable_global]
      exact agrees.records
  · have hne : stream ≠ .global := fun h => hglobal (StreamId.isGlobal_iff.mpr h)
    have hreadable : server.readable? stream
        = (store.version? stream).map fun _ => server.records.filter (·.stream = stream.name) := by
      rw [LogModel.readable?, if_neg hglobal, agrees.heads, Option.map_map]
      rfl
    rw [Bool.eq_false_iff.mpr hglobal, Bool.false_or, hreadable]
    cases store.version? stream with
    | none => exact .inl ⟨rfl, rfl⟩
    | some version =>
      refine .inr ⟨rfl, _, rfl, ?_⟩
      rw [MemoryStore.readable_of_ne_global store hne]
      exact agrees.records.filter fun record other twin => twin.of_stream stream

/-- The records beyond a cursor, in the direction of a read. -/
theorem Twins.beyond {records : List Record} {others : List ServerRecord}
    (twins : Twins records others) (stream : StreamId) (options : ReadOptions) :
    Twins
      ((match options.direction with
        | .forward => records
        | .backward => records.reverse).filter fun record =>
          options.admitsPosition (record.positionIn stream))
      (LogModel.select others (·.numberIn stream)
        ⟨options.direction, options.position, none⟩) := by
  obtain ⟨position, direction, maxCount, filter⟩ := options
  cases direction with
  | forward =>
    refine twins.filter fun record other twin => ?_
    refine decide_eq_decide.mpr ?_
    rw [Position.lt_iff_toInt, twin.toInt_positionIn]
  | backward =>
    show Twins (records.reverse.filter _) (others.filter _).reverse
    rw [← List.filter_reverse]
    refine twins.reverse.filter fun record other twin => ?_
    refine decide_eq_decide.mpr ?_
    rw [Position.lt_iff_toInt, twin.toInt_positionIn]

/-- What the store over a log server makes of the records that it was sent. -/
theorem select_eq (others : List ServerRecord) (number : ServerRecord → UInt64)
    (options : ReadOptions) :
    options.limit (((LogModel.select others number
        ⟨options.direction, options.position,
          if options.filter.isNone then options.maxCount else none⟩).map ServerRecord.toRecord).filter
        fun record => options.admitsType record.typeName)
      = options.limit (((LogModel.select others number
        ⟨options.direction, options.position, none⟩).map ServerRecord.toRecord).filter
          fun record => options.admitsType record.typeName) := by
  obtain ⟨position, direction, maxCount, filter⟩ := options
  cases filter with
  | some filter => rfl
  | none =>
    cases maxCount with
    | none => rfl
    | some count =>
      -- all types are admitted, and cutting twice is cutting once
      have hall : ∀ records : List Record, records.filter (fun record =>
          ReadOptions.admitsType ⟨position, direction, some count, none⟩ record.typeName) = records :=
        fun records => List.filter_eq_self.mpr fun _ _ => rfl
      simp only [hall, Option.isNone_none, if_true, LogModel.select_limit]
      show List.take count (List.map _ (List.take count _)) = List.take count (List.map _ _)
      rw [List.map_take, List.take_take, Nat.min_self]

/-- A read gives the same records on both. -/
theorem Twins.read {records : List Record} {others : List ServerRecord}
    (twins : Twins records others) (stream : StreamId) (options : ReadOptions) :
    (selectRecords stream records options).map Record.untimed
      = (options.limit (((LogModel.select others (·.numberIn stream)
          ⟨options.direction, options.position,
            if options.filter.isNone then options.maxCount else none⟩).map
              ServerRecord.toRecord).filter
          fun record => options.admitsType record.typeName)).map Record.untimed := by
  rw [select_eq, List.filter_map]
  have hsame : ∀ record other, Twin record other → options.admitsType record.typeName
      = options.admitsType other.toRecord.typeName := fun record other twin => by rw [twin.typeName]
  have htyped := (twins.beyond stream options).filter hsame
  have hselect : selectRecords stream records options = options.limit
      (((match options.direction with
        | .forward => records
        | .backward => records.reverse).filter fun record : Record =>
          options.admitsPosition (record.positionIn stream)).filter
        fun record => options.admitsType record.typeName) := by
    rw [List.filter_filter]
    refine congrArg options.limit (List.filter_congr fun record _ => ?_)
    exact Bool.and_comm _ _
  rw [hselect]
  unfold ReadOptions.limit
  cases options.maxCount with
  | none => exact htyped.untimed.symm
  | some count =>
    show List.map _ (List.take count _) = List.map _ (List.take count _)
    rw [← List.map_take]
    exact (htyped.take count).untimed.symm

/-- A slice whose records have lost their times. -/
def Slice.untimed (slice : Slice) : Slice :=
  { slice with records := slice.records.map Record.untimed }

/-- Reading through the store changes nothing and gives what is left of the records that can be read. -/
theorem read_eq (stream : StreamId) (options : ReadOptions) (server : LogModel) :
    LogServer.read LogModel.client stream options server
      = match server.readable? stream with
        | none => .refused server (.streamNotFound stream)
        | some others => .unchanged server ⟨stream, options.limit (((LogModel.select others
            (·.numberIn stream) ⟨options.direction, options.position,
              if options.filter.isNone then options.maxCount else none⟩).map
                ServerRecord.toRecord).filter fun record => options.admitsType record.typeName)⟩ := by
  unfold LogServer.read
  dsimp only
  rw [readFor_eq]
  cases server.readable? stream <;> rfl

theorem read_matches (agrees : Agrees store server) (stream : StreamId) (options : ReadOptions) :
    Matches Slice.untimed ⟨store.read stream options, store, []⟩
      (LogServer.read LogModel.client stream options server) := by
  rw [read_eq, MemoryStore.read]
  rcases agrees.readable stream with ⟨hmissing, hreadable⟩ | ⟨hfound, others, hreadable, twins⟩
  · rw [hmissing, hreadable]
    exact .refused agrees _
  · rw [hfound, hreadable]
    refine ⟨?_, agrees⟩
    show Except.ok (Slice.mk stream _) = Except.ok (Slice.mk stream _)
    rw [twins.read stream options]

/-! ## Existence and extent -/

/-- The first record of all that are read. -/
theorem LogModel.select_first (others : List ServerRecord) (number : ServerRecord → UInt64) :
    select others number .first = others.take 1 := by
  have hall : (others.filter fun other => decide (Position.start.toInt < (number other).toNat))
      = others := by
    refine List.filter_eq_self.mpr fun other _ => decide_eq_true ?_
    rw [Position.toInt_start]
    omega
  exact congrArg (List.take 1) hall

/-- The last record of all that are read, when none is numbered by the last word. -/
theorem LogModel.select_last {others : List ServerRecord} {number : ServerRecord → UInt64}
    (below : ∀ other ∈ others, ((number other).toNat : Int) < Int64.maxValue.toInt) :
    select others number .last = others.reverse.take 1 := by
  have hall : (others.filter fun other => decide (((number other).toNat : Int) < Position.last.toInt))
      = others := List.filter_eq_self.mpr fun other hother => decide_eq_true (below other hother)
  exact congrArg (fun selected => List.take 1 selected.reverse) hall

theorem exists_matches (agrees : Agrees store server) (stream : StreamId) :
    Matches id (.unchanged store (store.exists? stream))
      (LogServer.exists? LogModel.client stream server) := by
  have hexists : LogServer.exists? LogModel.client stream server
      = .unchanged server (match server.readable? stream with
        | some others => if stream.isGlobal then !others.isEmpty else true
        | none => false) := by
    rw [LogServer.exists?, readFor_eq]
    cases server.readable? stream with
    | none => rfl
    | some others =>
      simp only [Option.map_some, LogModel.select_first]
      cases others <;> rfl
  rw [hexists]
  refine ⟨?_, agrees⟩
  show Except.ok _ = Except.ok _
  congr 1
  unfold MemoryStore.exists?
  rcases agrees.readable stream with ⟨hmissing, hreadable⟩ | ⟨hfound, others, hreadable, twins⟩
  · rw [hreadable]
    obtain ⟨hglobal, hversion⟩ := Bool.or_eq_false_iff.mp hmissing
    rw [hglobal]
    exact hversion
  · rw [hreadable]
    by_cases hglobal : stream.isGlobal = true
    · rw [if_pos hglobal]
      rw [StreamId.isGlobal_iff.mp hglobal, MemoryStore.readable_global] at twins
      simp only [hglobal, if_true, twins.isEmpty_eq]
    · rw [if_neg hglobal]
      rw [Bool.eq_false_iff.mpr hglobal, Bool.false_or] at hfound
      simp only [hglobal, hfound]
      rfl

theorem Twins.below {others : List ServerRecord} (sound : store.Sound) {stream : StreamId}
    (twins : Twins (store.readable stream) others) :
    ∀ other ∈ others, ((other.numberIn stream).toNat : Int) < Int64.maxValue.toInt := by
  intro other hother
  obtain ⟨place, hplace, rfl⟩ := List.mem_iff_getElem.mp hother
  have hlength : place < (store.readable stream).length := by rwa [twins.length_eq]
  have twin : Twin (store.readable stream)[place] others[place] := twins.get hlength hplace
  rw [← twin.toInt_positionIn stream]
  exact sound.positionIn_lt (List.getElem_mem hlength)

theorem head?_map_take (others : List ServerRecord) :
    ((others.take 1).map ServerRecord.toRecord).head? = others.head?.map ServerRecord.toRecord := by
  cases others <;> rfl

theorem bounds_matches (agrees : Agrees store server) (sound : store.Sound) (stream : StreamId) :
    Matches id ⟨store.bounds stream, store, []⟩
      (LogServer.bounds LogModel.client stream server) := by
  rw [sound.bounds_eq]
  unfold LogServer.bounds
  simp only [readFor_eq, Answer.unchanged, Answer.andThen]
  rcases agrees.readable stream with ⟨hmissing, hreadable⟩ | ⟨hfound, others, hreadable, twins⟩
  · rw [hreadable, sound.readable_of_missing hmissing]
    exact .refused agrees _
  · simp only [hreadable, Option.map_some, Option.bind_some, LogModel.select_first,
      LogModel.select_last (twins.below sound), head?_map_take, List.head?_reverse]
    rcases twins.head? with ⟨hnone, hnone'⟩ | ⟨first, first', hfirst, hfirst', twin⟩
    · rw [hnone, hnone']
      exact .refused agrees _
    · rcases twins.getLast? with ⟨hnone, hnone'⟩ | ⟨last, last', hlast, hlast', twin'⟩
      · rw [hfirst, hfirst', hnone, hnone']
        exact .refused agrees _
      · rw [hfirst, hfirst', hlast, hlast']
        refine ⟨?_, agrees⟩
        simp only [Option.map_some, twin.toRecord_eq, twin'.toRecord_eq]
        rfl

/-! ## Removing -/

/-- A marker is left alike. -/
theorem mark_matches (agrees : Agrees store server) (sound : store.Sound) (now : Timestamp)
    (marker : Event)
    (room : store.appendChecked .markers now [marker] none = store.add .markers now [marker] →
      store.nextSequence.toInt + 1 ≤ Int64.maxValue.toInt) :
    Matches id (store.mark now marker)
      ((LogServer.append LogModel.client .markers [marker] none server).map fun _ => ()) := by
  have hmark : store.append .markers now [marker] none = store.appendChecked .markers now [marker] none :=
    store.append_of_ne_global now [marker] none StreamId.markers_ne_global
  have happend : Matches (List.map Record.untimed) (store.append .markers now [marker] none)
      (LogServer.append LogModel.client .markers [marker] none server) :=
    append_matches agrees sound now (.inr rfl) (by rw [hmark]; exact room)
  rw [hmark] at happend
  exact happend.done

/-- There is room for what a write adds. -/
theorem room_of_add {write : Write} (h : write ≠ .clear) {now : Timestamp} {events : List Event}
    (hadd : write.after store = ((write.kept store).add write.target now events).state)
    (room : store.nextSequence.toInt + (write.appended store).length ≤ Int64.maxValue.toInt) :
    (write.kept store).nextSequence.toInt + events.length ≤ Int64.maxValue.toInt := by
  rw [Write.appended_of_add h hadd, MemoryStore.length_batch] at room
  rw [write.nextSequence_kept store h]
  exact room

/-- A removal leaves its marker alike, when both removed the same. -/
theorem removal_matches {write : Write} (h : write ≠ .clear) (target : write.target = .markers)
    {removed : MemoryStore} {now : Timestamp} {marker : Event} (hkept : write.kept store = removed)
    (hafter : write.after store = (removed.mark now marker).state) (agrees : Agrees removed server)
    (sound : store.Sound)
    (room : store.nextSequence.toInt + (write.appended store).length ≤ Int64.maxValue.toInt) :
    Matches id (removed.mark now marker)
      ((LogServer.append LogModel.client .markers [marker] none server).map fun _ => ()) := by
  subst hkept
  refine mark_matches agrees (sound.kept write h) now marker fun hadd => ?_
  have hadded : write.after store
      = ((write.kept store).add write.target now [marker]).state := by
    rw [hafter, target]
    exact congrArg Answer.state hadd
  exact room_of_add h hadded room

theorem truncate_matches (agrees : Agrees store server) (sound : store.Sound) (stream : StreamId)
    (before : Position) (now : Timestamp) (fresh : EventId)
    (room : store.nextSequence.toInt
      + ((Write.truncate stream before now fresh).appended store).length ≤ Int64.maxValue.toInt) :
    Matches id (store.truncate stream before now fresh)
      (LogServer.truncate LogModel.client stream before fresh server) := by
  have hhead := agrees.heads stream
  have hne : Write.truncate stream before now fresh ≠ .clear := nofun
  have hafter := store.truncate_state stream before now fresh
  unfold LogServer.truncate MemoryStore.truncate
  cases hremovable : ensureRemovable stream "truncate" with
  | error error => exact .refused agrees error
  | ok done =>
    cases hversion : store.version? stream with
    | none =>
      rw [hversion] at hhead
      simp only [LogModel.client, LogModel.truncate, hhead, Option.map_none]
      exact .refused agrees _
    | some version =>
      obtain ⟨hglobal, hmarkers⟩ := MemoryStore.ensureRemovable_eq_ok_iff.mp hremovable
      have hr : store.Removable stream := ⟨hglobal, hmarkers, by rw [hversion]; rfl⟩
      rw [hversion] at hhead
      simp only [LogModel.client, LogModel.truncate, hhead, Option.map_some]
      exact removal_matches hne rfl (if_pos hr) (hafter.trans (if_pos hr))
        (agrees.withoutHead stream before) sound room

theorem delete_matches (agrees : Agrees store server) (sound : store.Sound) (stream : StreamId)
    (now : Timestamp) (fresh : EventId)
    (room : store.nextSequence.toInt
      + ((Write.delete stream now fresh).appended store).length ≤ Int64.maxValue.toInt) :
    Matches id (store.delete stream now fresh)
      (LogServer.delete LogModel.client stream fresh server) := by
  have hhead := agrees.heads stream
  have hne : Write.delete stream now fresh ≠ .clear := nofun
  have hafter := store.delete_state stream now fresh
  unfold LogServer.delete MemoryStore.delete
  cases hremovable : ensureRemovable stream "delete" with
  | error error => exact .refused agrees error
  | ok done =>
    cases hversion : store.version? stream with
    | none =>
      rw [hversion] at hhead
      simp only [LogModel.client, LogModel.delete, hhead, Option.map_none]
      exact ⟨rfl, agrees⟩
    | some version =>
      obtain ⟨hglobal, hmarkers⟩ := MemoryStore.ensureRemovable_eq_ok_iff.mp hremovable
      have hr : store.Removable stream := ⟨hglobal, hmarkers, by rw [hversion]; rfl⟩
      rw [hversion] at hhead
      simp only [LogModel.client, LogModel.delete, hhead, Option.map_some]
      exact removal_matches hne rfl (if_pos hr) (hafter.trans (if_pos hr))
        (agrees.withoutStream stream) sound room

end

/-! ## Calls -/

/-- A call of a store. -/
inductive StoreCall where
  | append (stream : StreamId) (events : List Event) (expected : Option StreamVersion)
  | read (stream : StreamId) (options : ReadOptions)
  | truncate (stream : StreamId) (before : Position)
  | delete (stream : StreamId)
  | exists? (stream : StreamId)
  | bounds (stream : StreamId)
  deriving Repr, DecidableEq, Inhabited

/-- What a call comes to. -/
inductive StoreReply where
  | appended (outcome : Outcome (List Record))
  | read (outcome : Outcome Slice)
  | done (outcome : Outcome Unit)
  | found (outcome : Outcome Bool)
  | extent (outcome : Outcome StreamBounds)
  deriving Inhabited

/-- A reply whose records have lost their times. -/
def StoreReply.untimed : StoreReply → StoreReply
  | appended outcome => appended (outcome.map (List.map Record.untimed))
  | read outcome => read (outcome.map Slice.untimed)
  | reply => reply

/-- A call at a moment, with an id for the marker that it may leave. -/
structure IssuedCall where
  call : StoreCall
  now : Timestamp
  fresh : EventId
  deriving Repr, DecidableEq, Inhabited

namespace IssuedCall

/-- Makes a call. -/
def run {σ : Type} (issued : IssuedCall) (backend : Backend σ) (state : σ) : StoreReply × σ :=
  let store := backend.store issued.now issued.fresh
  match issued.call with
  | .append stream events expected =>
    let answer := store.append stream events expected state
    (.appended answer.outcome, answer.state)
  | .read stream options =>
    let answer := store.read stream options state
    (.read answer.outcome, answer.state)
  | .truncate stream before =>
    let answer := store.truncate stream before state
    (.done answer.outcome, answer.state)
  | .delete stream =>
    let answer := store.delete stream state
    (.done answer.outcome, answer.state)
  | .exists? stream =>
    let answer := store.exists? stream state
    (.found answer.outcome, answer.state)
  | .bounds stream =>
    let answer := store.bounds stream state
    (.extent answer.outcome, answer.state)

/-- An append of nothing expects no version. -/
def Proper (issued : IssuedCall) : Prop :=
  match issued.call with
  | .append _ events expected => events ≠ [] ∨ expected = none
  | _ => True

instance (issued : IssuedCall) : Decidable issued.Proper :=
  match issued with
  | ⟨.append _ events expected, _, _⟩ => inferInstanceAs (Decidable (events ≠ [] ∨ expected = none))
  | ⟨.read _ _, _, _⟩ => isTrue trivial
  | ⟨.truncate _ _, _, _⟩ => isTrue trivial
  | ⟨.delete _, _, _⟩ => isTrue trivial
  | ⟨.exists? _, _, _⟩ => isTrue trivial
  | ⟨.bounds _, _, _⟩ => isTrue trivial

/-- The write that a call may make in memory. -/
def writes (issued : IssuedCall) : List Write :=
  match issued.call with
  | .append stream events expected => [.append stream events expected issued.now]
  | .truncate stream before => [.truncate stream before issued.now issued.fresh]
  | .delete stream => [.delete stream issued.now issued.fresh]
  | _ => []

end IssuedCall

/-- The replies to calls that are made one after another. -/
def Backend.replies {σ : Type} (backend : Backend σ) : List IssuedCall → σ → List StoreReply
  | [], _ => []
  | issued :: rest, state =>
    (issued.run backend state).1 :: backend.replies rest (issued.run backend state).2

/-- A call comes to the same on both kinds of store, and leaves them with the same journal. -/
theorem IssuedCall.run_matches {store : MemoryStore} {server : LogModel}
    (agrees : Agrees store server) (sound : store.Sound) (issued : IssuedCall) (proper : issued.Proper)
    (room : store.nextSequence.toInt + (MemoryStore.appendedBy issued.writes store).length
      ≤ Int64.maxValue.toInt) :
    (issued.run .memory store).1.untimed
        = (issued.run (.logServer LogModel.client) server).1.untimed ∧
      (issued.run .memory store).2 = store.run issued.writes ∧
      Agrees (store.run issued.writes) (issued.run (.logServer LogModel.client) server).2 := by
  obtain ⟨call, now, fresh⟩ := issued
  cases call with
  | append stream events expected =>
    change _ + (((Write.append stream events expected now).appended store ++ []).length : Int) ≤ _
      at room
    rw [List.append_nil] at room
    have hne : Write.append stream events expected now ≠ .clear := nofun
    have hmatches := append_matches agrees sound now proper fun hadd =>
      room_of_add hne (congrArg Answer.state hadd) room
    exact ⟨congrArg StoreReply.appended hmatches.outcome, rfl, hmatches.state⟩
  | read stream options =>
    have hmatches := read_matches agrees stream options
    exact ⟨congrArg StoreReply.read hmatches.outcome, rfl, hmatches.state⟩
  | truncate stream before =>
    change _ + (((Write.truncate stream before now fresh).appended store ++ []).length : Int) ≤ _
      at room
    rw [List.append_nil] at room
    have hmatches := truncate_matches agrees sound stream before now fresh room
    exact ⟨congrArg StoreReply.done hmatches.same, rfl, hmatches.state⟩
  | delete stream =>
    change _ + (((Write.delete stream now fresh).appended store ++ []).length : Int) ≤ _ at room
    rw [List.append_nil] at room
    have hmatches := delete_matches agrees sound stream now fresh room
    exact ⟨congrArg StoreReply.done hmatches.same, rfl, hmatches.state⟩
  | exists? stream =>
    have hmatches := exists_matches agrees stream
    exact ⟨congrArg StoreReply.found hmatches.same, rfl, hmatches.state⟩
  | bounds stream =>
    have hmatches := bounds_matches agrees sound stream
    exact ⟨congrArg StoreReply.extent hmatches.same, rfl, hmatches.state⟩

/-- Telling the extent of a stream changes nothing. -/
theorem bounds_state (stream : StreamId) (server : LogModel) :
    (LogServer.bounds LogModel.client stream server).state = server := by
  rw [LogServer.bounds, readFor_eq]
  simp only [Answer.unchanged, Answer.andThen, readFor_eq]
  split <;> rfl

/-- A call that cannot write changes nothing. -/
theorem IssuedCall.run_of_writes_nil {issued : IssuedCall} (h : issued.writes = [])
    (server : LogModel) : (issued.run (.logServer LogModel.client) server).2 = server := by
  obtain ⟨call, now, fresh⟩ := issued
  cases call with
  | append stream events expected => cases h
  | read stream options =>
    show (LogServer.read LogModel.client stream options server).state = server
    rw [read_eq]
    cases server.readable? stream <;> rfl
  | truncate stream before => cases h
  | delete stream => cases h
  | exists? stream =>
    show (LogServer.exists? LogModel.client stream server).state = server
    rw [LogServer.exists?, readFor_eq]
    rfl
  | bounds stream => exact bounds_state stream server

/-- An append of nothing changes nothing, whatever version it expects. -/
theorem MemoryStore.append_nothing (store : MemoryStore) (stream : StreamId) (now : Timestamp)
    (expected : Option StreamVersion) : (store.append stream now [] expected).state = store := by
  by_cases hglobal : stream = .global
  · rw [store.append_of_global now [] expected hglobal]
    rfl
  · rw [store.append_of_ne_global now [] expected hglobal]
    rcases store.appendChecked_cases now [] expected hglobal with hsame | ⟨admissible, -⟩
    · exact hsame
    · exact absurd rfl admissible.nonempty

theorem run_appendNothing (stream : StreamId) (expected : Option StreamVersion) (now : Timestamp)
    (fresh : EventId) (server : LogModel) :
    (IssuedCall.run ⟨.append stream [] expected, now, fresh⟩ (.logServer LogModel.client) server).2
      = server := by
  show (LogServer.append LogModel.client stream [] expected server).state = server
  unfold LogServer.append
  cases ensureWritable stream "append to" with
  | error error => rfl
  | ok done =>
    cases expected with
    | none => rfl
    | some version =>
      exact bounds_state stream server

/-- A call leaves both kinds of store with the same journal. -/
theorem IssuedCall.run_agrees {store : MemoryStore} {server : LogModel}
    (agrees : Agrees store server) (sound : store.Sound) (issued : IssuedCall)
    (room : store.nextSequence.toInt + (MemoryStore.appendedBy issued.writes store).length
      ≤ Int64.maxValue.toInt) :
    Agrees (store.run issued.writes) (issued.run (.logServer LogModel.client) server).2 := by
  by_cases proper : issued.Proper
  · exact (issued.run_matches agrees sound proper room).2.2
  · obtain ⟨call, now, fresh⟩ := issued
    cases call with
    | append stream events expected =>
      obtain ⟨hevents, -⟩ := not_or.mp proper
      obtain rfl : events = [] := not_not.mp hevents
      rw [run_appendNothing]
      show Agrees (store.append stream now [] expected).state server
      rw [store.append_nothing]
      exact agrees
    | read stream options => exact absurd trivial proper
    | truncate stream before => exact absurd trivial proper
    | delete stream => exact absurd trivial proper
    | exists? stream => exact absurd trivial proper
    | bounds stream => exact absurd trivial proper

/-- The state after calls that are made one after another. -/
def Backend.after {σ : Type} (backend : Backend σ) : List IssuedCall → σ → σ
  | [], state => state
  | issued :: rest, state => backend.after rest (issued.run backend state).2

/-- Calls leave both kinds of store with the same journal; `count` records were appended before. -/
theorem Backend.after_agrees {store : MemoryStore} {server : LogModel} (agrees : Agrees store server)
    (sound : store.Sound) (calls : List IssuedCall) (count : Nat)
    (hcount : store.nextSequence.toInt ≤ count + 1)
    (few : (count : Int) + (MemoryStore.appendedBy (calls.flatMap IssuedCall.writes) store).length
      < Int64.maxValue.toInt) :
    Agrees (store.run (calls.flatMap IssuedCall.writes))
      ((Backend.logServer LogModel.client).after calls server) := by
  induction calls generalizing store server count with
  | nil => exact agrees
  | cons issued rest ih =>
    rw [List.flatMap_cons, MemoryStore.appendedBy_append, List.length_append, Int.natCast_add] at few
    rw [List.flatMap_cons, MemoryStore.run_append]
    obtain ⟨hsound, hnext⟩ := sound.run issued.writes count hcount (by omega)
    exact ih (issued.run_agrees agrees sound (by omega)) hsound
      (count + (MemoryStore.appendedBy issued.writes store).length) (by omega) (by omega)

/-- Calls come to the same from any two stores that hold the same journal; `count` records were appended
before. -/
theorem replies_matches {store : MemoryStore} {server : LogModel} (agrees : Agrees store server)
    (sound : store.Sound) (calls : List IssuedCall) (proper : ∀ issued ∈ calls, issued.Proper)
    (count : Nat) (hcount : store.nextSequence.toInt ≤ count + 1)
    (few : (count : Int) + (MemoryStore.appendedBy (calls.flatMap IssuedCall.writes) store).length
      < Int64.maxValue.toInt) :
    (Backend.memory.replies calls store).map StoreReply.untimed
      = ((Backend.logServer LogModel.client).replies calls server).map StoreReply.untimed := by
  induction calls generalizing store server count with
  | nil => rfl
  | cons issued rest ih =>
    rw [List.flatMap_cons, MemoryStore.appendedBy_append, List.length_append, Int.natCast_add] at few
    obtain ⟨hreply, hstore, hagrees⟩ := IssuedCall.run_matches agrees sound issued
      (proper issued List.mem_cons_self) (by omega)
    obtain ⟨hsound, hnext⟩ := sound.run issued.writes count hcount (by omega)
    have hrest := ih hagrees hsound (fun other hother => proper other (List.mem_cons_of_mem _ hother))
      (count + (MemoryStore.appendedBy issued.writes store).length) (by omega) (by omega)
    show (issued.run .memory store).1.untimed :: _ = (issued.run _ server).1.untimed :: _
    rw [hreply, hstore, hrest]

/-- **Both kinds of store give the same answers**: whatever calls are made one after another to a fresh
store in memory and to one over a fresh log server, they come to the same at every step, up to the times
of records. -/
theorem replies_eq (calls : List IssuedCall) (proper : ∀ issued ∈ calls, issued.Proper)
    (few : ((MemoryStore.appendedBy (calls.flatMap IssuedCall.writes) .empty).length : Int)
      < Int64.maxValue.toInt) :
    (Backend.memory.replies calls .empty).map StoreReply.untimed
      = ((Backend.logServer LogModel.client).replies calls .empty).map StoreReply.untimed := by
  refine replies_matches .empty (.empty .empty) calls proper 0 (by decide) ?_
  rw [Int.natCast_zero, Int.zero_add]
  exact few

/-- Appends that succeed, conflict and repeat an id, a truncation, a deletion, and reads between them. -/
def sampleCalls : List IssuedCall :=
  [.append ⟨"a"⟩ [⟨⟨"1"⟩, "t", .null, .empty⟩, ⟨⟨"2"⟩, "u", .null, .empty⟩] none,
    .append ⟨"a"⟩ [⟨⟨"3"⟩, "t", .null, .empty⟩] (some ⟨-7⟩),
    .append ⟨"a"⟩ [⟨⟨"3"⟩, "t", .null, .empty⟩] (some ⟨1⟩),
    .append ⟨"b"⟩ [⟨⟨"2"⟩, "t", .null, .empty⟩] (some .initial),
    .truncate ⟨"a"⟩ ⟨1⟩, .read ⟨"a"⟩ ⟨.last, .backward, some 1, some (.exclude ["t"])⟩,
    .bounds ⟨"a"⟩, .delete ⟨"a"⟩, .read ⟨"a"⟩ .forward, .exists? .global].mapIdx
      fun place call => ⟨call, default, ⟨String.ofList (.replicate place 'm')⟩⟩

theorem replies_eq_sample :
    (∀ issued ∈ sampleCalls, issued.Proper) ∧
      ((MemoryStore.appendedBy (sampleCalls.flatMap IssuedCall.writes) .empty).length : Int)
        < Int64.maxValue.toInt ∧
      ((Backend.logServer LogModel.client).replies sampleCalls .empty)[1]?
        = some (.appended (.error (.concurrency ⟨"a"⟩ ⟨-7⟩ ⟨1⟩))) ∧
      ((Backend.logServer LogModel.client).replies sampleCalls .empty)[6]?
        = some (.extent (.ok ⟨⟨"a"⟩, ⟨2⟩, ⟨1⟩⟩)) ∧
      ((Backend.logServer LogModel.client).replies sampleCalls .empty)[7]? = some (.done (.ok ())) ∧
      (Backend.memory.replies sampleCalls .empty).map StoreReply.untimed
        = ((Backend.logServer LogModel.client).replies sampleCalls .empty).map StoreReply.untimed :=
  have proper : ∀ issued ∈ sampleCalls, issued.Proper := by decide
  have few : ((MemoryStore.appendedBy (sampleCalls.flatMap IssuedCall.writes) .empty).length : Int)
      < Int64.maxValue.toInt := by decide
  ⟨proper, few, rfl, rfl, rfl, replies_eq sampleCalls proper few⟩

end EventJournal
