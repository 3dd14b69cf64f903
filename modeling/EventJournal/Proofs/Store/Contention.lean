import EventJournal.Proofs.Feed.Decision
import EventJournal.Proofs.Store.Horizon

/-!
# Writers who expect a version

A writer reads a stream, decides what to append, and appends it expecting the version that it read.
Others write between the two. The version of a stream that is neither deleted nor cleared counts the
records that it ever got, truncated ones included, so a version comes back only if nothing was written in
between. From this one law both parts of the main statement follow.

* `Ample.versionOf_run` — the version of a spared stream grows by the records that it gets.
* `Wins` — a writer who expects a version is the one to be let through.
* `expected_version_wins_once` — the main statement: one writer wins a version, and between the moment at
  which the stream had it and the append nobody wrote to the stream.
-/

namespace EventJournal

namespace MemoryStore

/-! ## A version counts records -/

section

variable {store : MemoryStore} {stream : StreamId} {write : Write} {writes : List Write}

/-- The version of a spared stream grows by the records that a write appends to it. -/
theorem Sound.versionOf_after (h : Sound store) (spares : write.Spares stream)
    (room : store.nextSequence.toInt + (write.appended store).length ≤ Int64.maxValue.toInt) :
    ((write.after store).versionOf stream).toInt = (store.versionOf stream).toInt
      + (write.appended store).countP (·.stream = stream) := by
  have hkept : (write.kept store).versionOf stream = store.versionOf stream := versionOf_kept spares
  rcases write.after_cases store spares.ne_clear with ⟨hafter, hnone⟩ | ⟨now, events, -, hafter, hbatch⟩
  · rw [hafter, hnone, hkept]
    simp
  · rw [hafter, versionOf, version?_add, hbatch]
    by_cases htarget : stream = write.target
    · -- the whole batch is the stream's
      have hall : ((write.kept store).batch write.target now events).countP (·.stream = stream)
          = events.length := by
        rw [List.countP_eq_length.mpr, length_batch]
        intro record hrecord
        exact decide_eq_true ((stream_of_mem_batch hrecord).trans htarget.symm)
      have hbounds := h.versionOf_bounds stream
      rw [hbatch, length_batch] at room
      rw [if_pos htarget, Option.getD_some, hall, ← htarget, hkept,
        StreamVersion.toInt_plus (by omega)]
    · -- none of it is
      have hnone : ((write.kept store).batch write.target now events).countP (·.stream = stream)
          = 0 := by
        rw [List.countP_eq_zero]
        intro record hrecord hstream
        exact htarget ((of_decide_eq_true hstream).symm.trans (stream_of_mem_batch hrecord))
      rw [if_neg htarget, hnone, ← versionOf, hkept]
      omega

/-- So it does along a run. -/
theorem Ample.versionOf_run (h : Ample store writes) (spares : ∀ write ∈ writes, write.Spares stream) :
    ((store.run writes).versionOf stream).toInt = (store.versionOf stream).toInt
      + (appendedBy writes store).countP (·.stream = stream) := by
  induction writes generalizing store with
  | nil => exact (Int.add_zero _).symm
  | cons write rest ih =>
    have hfirst := h.sound.versionOf_after (spares write List.mem_cons_self) h.room
    have hrest := ih h.rest fun other hother => spares other (List.mem_cons_of_mem _ hother)
    rw [MemoryStore.run, hrest, hfirst, appendedBy, List.countP_append]
    omega

/-- A version that comes back was not left: the stream got no record. -/
theorem Ample.unwritten_of_versionOf_eq (h : Ample store writes)
    (spares : ∀ write ∈ writes, write.Spares stream)
    (same : (store.run writes).versionOf stream = store.versionOf stream) :
    ∀ record ∈ appendedBy writes store, record.stream ≠ stream := by
  have hrun := h.versionOf_run spares
  rw [same] at hrun
  have hnone : (appendedBy writes store).countP (·.stream = stream) = 0 := by omega
  intro record hrecord hstream
  exact List.countP_eq_zero.mp hnone record hrecord (decide_eq_true hstream)

end

/-! ## Winning -/

/-- An append of some events that is accepted found the version that it expected, and adds its batch. -/
theorem append_accepted {store : MemoryStore} {stream : StreamId} {now : Timestamp}
    {events : List Event} {version : StreamVersion} {records : List Record}
    (accepted : (store.append stream now events (some version)).outcome = .ok records)
    (nonempty : events ≠ []) :
    store.versionOf stream = version ∧
      store.append stream now events (some version) = store.add stream now events := by
  by_cases hglobal : stream = .global
  · rw [append_of_global store now events _ hglobal] at accepted
    cases accepted
  have hsome : events.isEmpty = false := List.isEmpty_eq_false_iff.mpr nonempty
  rw [append_of_ne_global store now events _ hglobal] at accepted ⊢
  -- the checks in their order: past all of them there is only the batch to add
  cases hunique : checkUnique events with
  | error error => simp [appendChecked, hunique, Answer.refused] at accepted
  | ok _ =>
    cases hexpected : checkExpected stream (some version) (store.versionOf stream) with
    | error error => simp [appendChecked, hunique, hexpected] at accepted
    | ok _ =>
      cases hduplicate : store.duplicate? events with
      | some event =>
        simp [appendChecked, hunique, hexpected, hsome, hduplicate, Answer.refused] at accepted
      | none =>
        refine ⟨(checkExpected_eq_ok_iff.mp hexpected version rfl).symm, ?_⟩
        simp [appendChecked, hunique, hexpected, hsome, hduplicate]

/-- Of some writes the one at this place is an append to a stream that expects a version, has something to
append, and is accepted. -/
def Wins (store : MemoryStore) (writes : List Write) (stream : StreamId) (version : StreamVersion)
    (place : Nat) : Prop :=
  ∃ events now, writes[place]? = some (.append stream events (some version) now) ∧ events ≠ [] ∧
    ∃ records,
      ((store.run (writes.take place)).append stream now events (some version)).outcome = .ok records

section

variable {store : MemoryStore} {stream : StreamId} {version : StreamVersion} {writes : List Write}
  {place : Nat}

theorem Wins.versionOf (h : store.Wins writes stream version place) :
    (store.run (writes.take place)).versionOf stream = version := by
  obtain ⟨events, now, -, nonempty, records, accepted⟩ := h
  exact (append_accepted accepted nonempty).1

/-- Who wins writes to the stream. -/
theorem Wins.adds (h : store.Wins writes stream version place) :
    ∃ write, writes[place]? = some write ∧
      ∃ record ∈ write.appended (store.run (writes.take place)), record.stream = stream := by
  obtain ⟨events, now, hwrite, nonempty, records, accepted⟩ := h
  refine ⟨_, hwrite, ?_⟩
  have hbatch : (Write.append stream events (some version) now).appended
      (store.run (writes.take place)) = (store.run (writes.take place)).batch stream now events := by
    refine Write.appended_of_add Write.noConfusion ?_
    show (MemoryStore.append _ stream now events (some version)).state = _
    rw [(append_accepted accepted nonempty).2]
    rfl
  have hlength := length_batch (store.run (writes.take place)) stream now events
  obtain ⟨record, hrecord⟩ := List.exists_mem_of_length_pos
    (hlength ▸ List.length_pos_of_ne_nil nonempty)
  rw [hbatch]
  exact ⟨record, hrecord, stream_of_mem_batch hrecord⟩

/-- Between a moment at which the stream had the version and the append that wins it, nobody wrote to the
stream. -/
theorem Wins.unwritten (h : store.Wins writes stream version place) (ample : Ample store writes)
    (spares : ∀ write ∈ writes, write.Spares stream) {moment : Nat} (hle : moment ≤ place)
    (had : (store.run (writes.take moment)).versionOf stream = version) :
    ∀ record ∈ appendedBy ((writes.take place).drop moment) (store.run (writes.take moment)),
      record.stream ≠ stream := by
  have hsplit : writes.take moment ++ (writes.take place).drop moment = writes.take place := by
    rw [← Nat.min_eq_left hle, ← List.take_take, Nat.min_eq_left hle, List.take_append_drop]
  have hfront := ample.take place
  rw [← hsplit] at hfront
  refine hfront.run.unwritten_of_versionOf_eq (fun write hwrite => ?_) ?_
  · exact spares write (List.mem_of_mem_take (List.mem_of_mem_drop hwrite))
  · rw [← run_append, hsplit, h.versionOf, had]

/-- A stream that is won as one not there was not there at the start. -/
theorem Wins.initial_at_start (h : store.Wins writes stream .initial place)
    (ample : Ample store writes) (spares : ∀ write ∈ writes, write.Spares stream) :
    store.versionOf stream = .initial := by
  have hgrown := (ample.take place).versionOf_run fun write hwrite =>
    spares write (List.mem_of_mem_take hwrite)
  have hbounds := ample.sound.versionOf_bounds stream
  rw [h.versionOf, StreamVersion.toInt_initial] at hgrown
  -- no version lies below the initial one, and none falls
  rw [← StreamVersion.toInt_inj, StreamVersion.toInt_initial]
  omega

end

/-- **An expected version is won once**: among any writes that spare a stream, at most one append of some
events that expects a given version of it is accepted. The stream has that version then, and between any
earlier moment at which it had it, such as that at which the writer read it, and the append no other record
was written to the stream; one who expects it not to be there was the first to write to it. What was
truncated meanwhile makes no difference, and a reader changes nothing. -/
theorem expected_version_wins_once (before writes : List Write) (stream : StreamId)
    (version : StreamVersion) (spares : ∀ write ∈ writes, write.Spares stream)
    (few : ((appendedBy (before ++ writes) empty).length : Int) < Int64.maxValue.toInt) :
    let store := empty.run before
    (∀ i j, store.Wins writes stream version i → store.Wins writes stream version j → i = j) ∧
      ∀ place, store.Wins writes stream version place →
        (store.run (writes.take place)).versionOf stream = version ∧
        (version = .initial → ∀ record ∈ appendedBy (writes.take place) store,
          record.stream ≠ stream) ∧
        ∀ moment ≤ place, (store.run (writes.take moment)).versionOf stream = version →
          ∀ record ∈ appendedBy ((writes.take place).drop moment) (store.run (writes.take moment)),
            record.stream ≠ stream := by
  intro store
  have ample : Ample store writes := (Ample.empty few).run
  have apart : ∀ i j, i < j → store.Wins writes stream version i →
      ¬ store.Wins writes stream version j := by
    intro i j hij hi hj
    obtain ⟨write, hwrite, record, hrecord, hstream⟩ := hi.adds
    -- the earlier of two winners wrote to the stream after it had the version
    have hfirst : ((writes.take j).drop i)[0]? = some write := by
      rw [List.getElem?_drop, Nat.add_zero, List.getElem?_take_of_lt hij, hwrite]
    obtain ⟨rest, hrest⟩ : ∃ rest, (writes.take j).drop i = write :: rest := by
      cases hbetween : (writes.take j).drop i with
      | nil => rw [hbetween] at hfirst; cases hfirst
      | cons other rest => rw [hbetween] at hfirst; cases hfirst; exact ⟨rest, rfl⟩
    refine hj.unwritten ample spares (Nat.le_of_lt hij) hi.versionOf record ?_ hstream
    rw [hrest, appendedBy]
    exact List.mem_append_left _ hrecord
  refine ⟨fun i j hi hj => ?_, fun place hwins => ⟨hwins.versionOf, ?_, ?_⟩⟩
  · rcases Nat.lt_trichotomy i j with hij | heq | hji
    · exact absurd hj (apart i j hij hi)
    · exact heq
    · exact absurd hi (apart j i hji hj)
  · rintro rfl
    exact hwins.unwritten ample spares (Nat.zero_le place) (hwins.initial_at_start ample spares)
  · intro moment hle had
    exact hwins.unwritten ample spares hle had

/-- Two writers read a stream at its version one, before it is truncated past its end; both append. -/
def contended : List Write :=
  [.truncate ⟨"a"⟩ ⟨9⟩ default ⟨"m"⟩, .append ⟨"b"⟩ [⟨⟨"3"⟩, "t", .null, .empty⟩] none default,
    .append ⟨"a"⟩ [⟨⟨"4"⟩, "t", .null, .empty⟩] (some ⟨1⟩) default, .delete ⟨"b"⟩ default ⟨"n"⟩,
    .append ⟨"a"⟩ [⟨⟨"5"⟩, "t", .null, .empty⟩] (some ⟨1⟩) default]

/-- What they read. -/
def contendedBefore : List Write :=
  [.append ⟨"a"⟩ [⟨⟨"1"⟩, "t", .null, .empty⟩, ⟨⟨"2"⟩, "t", .null, .empty⟩] none default]

theorem expected_version_wins_once_sample :
    let store := empty.run contendedBefore
    (∀ write ∈ contended, write.Spares ⟨"a"⟩) ∧
      ((appendedBy (contendedBefore ++ contended) empty).length : Int) < Int64.maxValue.toInt ∧
      (store.run (contended.take 2)).recordsOf ⟨"a"⟩ = [] ∧
      store.Wins contended ⟨"a"⟩ ⟨1⟩ 2 ∧ (∀ place, store.Wins contended ⟨"a"⟩ ⟨1⟩ place → place = 2) ∧
      ∀ record ∈ appendedBy (contended.take 2) store, record.stream ≠ ⟨"a"⟩ := by
  intro store
  have spares : ∀ write ∈ contended, write.Spares ⟨"a"⟩ := by decide
  have few : ((appendedBy (contendedBefore ++ contended) empty).length : Int)
      < Int64.maxValue.toInt := by decide
  have hwins : store.Wins contended ⟨"a"⟩ ⟨1⟩ 2 := ⟨_, _, rfl, List.cons_ne_nil _ _, _, rfl⟩
  obtain ⟨once, between⟩ :=
    expected_version_wins_once contendedBefore contended ⟨"a"⟩ ⟨1⟩ spares few
  refine ⟨spares, few, by decide, hwins, fun place hplace => once place 2 hplace hwins, ?_⟩
  exact (between 2 hwins).2.2 0 (Nat.zero_le 2) (by decide)

end MemoryStore

end EventJournal
