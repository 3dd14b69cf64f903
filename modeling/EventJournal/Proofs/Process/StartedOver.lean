import EventJournal.Proofs.Process.Handings
import EventJournal.Proofs.Process.Taken

/-!
# Streams that start over

A checkpoint outlives the stream it belongs to. When the stream is deleted and appended to again, its
versions start over, and a pass goes on reading beyond the version where the old records ended. The new
records up to there are not handled, in this pass or a later one.

Nothing else is passed over, as long as handling and saving do not fail. The passes of such a processor
leave a trail, and that tells which of the records that a pass could read are ever handled.

* `Course.Thorough` — the invariant of a processor that nothing goes wrong with.
* `Course.Thorough.read` — the read of a pass surveys the stream.
* `Course.handled_iff_ahead` — the main statement. The trace after it is one where a record is passed
  over.
-/

namespace EventJournal

open MemoryStore PassAction

/-- A processor of all records of a stream in memory, which it handles and whose checkpoints are saved
without a failure. -/
structure Processor.Untroubled {κ η : Type} (processor : Processor MemoryStore κ η) : Prop
    extends processor.ReadsMemory where
  unfiltered : processor.config.filter = none
  handles : ∀ record handler, (processor.handler record handler).1 = .ok ()
  saves : ∀ checkpoint checkpoints, (processor.checkpoints.save checkpoint checkpoints).1 = .ok ()

/-- It reads all that lies beyond a position. -/
theorem Processor.Untroubled.readAfter_eq {κ η : Type} {processor : Processor MemoryStore κ η}
    (untroubled : processor.Untroubled) {store : MemoryStore} (sound : store.Sound)
    (position : Position) :
    (processor.readAfter position store).outcome
      = .ok (store.beyond processor.config.stream position) := by
  simp only [readAfter, untroubled.read, untroubled.unfiltered]
  cases hread : store.read processor.config.stream
      { ReadOptions.forward with position, filter := none } with
  | ok slice =>
    dsimp only
    rw [read_beyond hread]
    exact congrArg Except.ok (List.filter_eq_self.mpr fun _ _ => rfl)
  | error error =>
    unfold MemoryStore.read at hread
    split at hread
    · cases hread
    · rename_i hmissing
      cases hread
      rw [sound.beyond_of_missing (Bool.eq_false_iff.mpr hmissing)]
      rfl

namespace Course

variable {κ η : Type}

/-- Neither the store is cleared nor a pass abandoned. -/
def Action.Steady : Action → Prop
  | .write call => call ≠ .clear
  | .abandon => False
  | _ => True

instance (action : Action) : Decidable action.Steady :=
  match action with
  | .write call => inferInstanceAs (Decidable (call ≠ .clear))
  | .begin => inferInstanceAs (Decidable True)
  | .advance => inferInstanceAs (Decidable True)
  | .abandon => inferInstanceAs (Decidable False)

/-! ## Passes that leave a trail -/

section

variable {processor : Processor MemoryStore κ η} {config : ProcessorConfig}
  {saved : String → κ → Option Checkpoint} {course course' : Course κ η} {commit : Int}
  {surveyed : List Record}

/-- The invariant of a processor that nothing goes wrong with: what it takes is a trail, and the last
position that it will commit is where the trail ends. -/
structure Thorough (config : ProcessorConfig) (saved : String → κ → Option Checkpoint)
    (course : Course κ η) (commit : Int) (surveyed : List Record) : Prop where
  sound : course.place.store.Sound
  next : course.place.store.nextSequence.toInt ≤ course.written.length + 1
  given : commit < course.place.store.nextSequence.toInt
  remembered : ∀ record ∈ course.place.store.readable config.stream,
    record.sequence.toInt ≤ commit → record ∈ surveyed
  trail : Trail config.stream .start commit surveyed course.taken
  aim : goal (course.persisted config saved).position course.remaining
    = cursorAfter config.stream .start course.taken
  inHand : ∀ checkpoint ∈ course.inHand, checkpoint = course.persisted config saved

/-- A step of the pass that takes nothing new. -/
theorem Thorough.of_takes (h : Thorough config saved course commit surveyed)
    (takes : Takes config saved course course' []) :
    Thorough config saved course' commit surveyed where
  sound := takes.store ▸ h.sound
  next := by
    rw [takes.store, takes.written]
    exact h.next
  given := by
    rw [takes.store]
    exact h.given
  remembered := by
    rw [takes.store]
    exact h.remembered
  trail := by
    rw [takes.taken, List.append_nil]
    exact h.trail
  aim := takes.aim_eq h.aim
  inHand := takes.inHand

/-- Before the first pass, whatever was written before. -/
theorem thorough_start (config : ProcessorConfig) {before : List Write} {checkpoints : κ}
    (state : η) (absent : saved config.name checkpoints = none)
    (few : ((appendedBy before .empty).length : Int) < Int64.maxValue.toInt) :
    Thorough config saved (start before checkpoints state) 0 [] := by
  obtain ⟨hsound, hnext⟩ := Sound.run_empty before few
  refine ⟨hsound, hnext, hsound.first, ?_, .start _ _ _, ?_, nofun⟩
  · intro record hrecord hle
    have hfirst := (hsound.numbered record (mem_readable.mp hrecord).1).1
    omega
  · show (config.persisted saved checkpoints).position = _
    rw [ProcessorConfig.persisted, absent]
    rfl

/-- Whatever is written, a stream that starts over included, sequence numbers go on. -/
theorem Thorough.write (h : Thorough config saved course commit surveyed) {call : Write}
    (hc : call ≠ .clear)
    (few : ((course.write call).written.length : Int) < Int64.maxValue.toInt) :
    Thorough config saved (course.write call) commit surveyed := by
  obtain ⟨room, hsound, hnext⟩ := write_sound h.sound h.next call few
  have hgiven := h.given
  have hafter : (course.write call).place.store.nextSequence.toInt = _ :=
    Sound.nextSequence_after call hc room
  refine ⟨hsound, hnext, ?_, ?_, h.trail, h.aim, h.inHand⟩
  · omega
  · intro record hrecord hle
    rcases mem_readable_after hc hrecord with hold | ⟨hfresh, -⟩
    · exact h.remembered record hold hle
    · have hnumber := (h.sound.appended_numbers call room hfresh).2
      omega

/-- The read of a pass surveys the stream. -/
theorem Thorough.read (h : Thorough processor.config saved course commit surveyed)
    (untroubled : processor.Untroubled) {checkpoint : Checkpoint}
    (phase : course.pass = some (.reading checkpoint)) :
    Thorough processor.config saved (course.advance processor)
      (course.place.store.nextSequence.toInt - 1)
      (surveyed ++ course.place.store.readable processor.config.stream) := by
  have htakes := takes_read untroubled.readsOnly h.inHand phase
    (untroubled.readAfter_eq h.sound checkpoint.position)
  have hcursor : checkpoint.position = cursorAfter processor.config.stream .start course.taken :=
    position_of_reading h.inHand h.aim phase
  have hgiven := h.given
  have hnumbered : ∀ record ∈ course.place.store.readable processor.config.stream,
      record.sequence.toInt ≤ course.place.store.nextSequence.toInt - 1 := by
    intro record hrecord
    have hlt := (h.sound.numbered record (mem_readable.mp hrecord).1).2
    rw [SequenceNumber.lt_iff_toInt] at hlt
    omega
  have htrail := h.trail.survey (h.sound.readable_pairwise processor.config.stream) h.remembered
    hnumbered (by omega)
  refine ⟨htakes.store ▸ h.sound, ?_, ?_, ?_, ?_, htakes.aim_eq h.aim, htakes.inHand⟩
  · rw [htakes.store, htakes.written]
    exact h.next
  · rw [htakes.store]
    exact Int.sub_lt_self _ Int.one_pos
  · rw [htakes.store]
    exact fun record hrecord _ => List.mem_append_right _ hrecord
  · rw [htakes.taken, beyond, hcursor]
    exact htrail

/-- Whatever happens, a thorough course stays so and forgets nothing that it surveyed. -/
theorem Thorough.step (h : Thorough processor.config saved course commit surveyed)
    (untroubled : processor.Untroubled) (atomic : processor.checkpoints.Atomic saved)
    {action : Action} (steady : action.Steady)
    (few : ((course.step processor action).written.length : Int) < Int64.maxValue.toInt) :
    ∃ commit' surveyed', Thorough processor.config saved (course.step processor action) commit'
      surveyed' ∧ surveyed ⊆ surveyed' := by
  cases action with
  | write call => exact ⟨_, _, h.write steady few, fun _ => id⟩
  | begin => exact ⟨_, _, h.of_takes (takes_begin atomic.toKeeps h.inHand), fun _ => id⟩
  | advance =>
    by_cases hreading : ∃ checkpoint, course.pass = some (.reading checkpoint)
    · obtain ⟨checkpoint, hphase⟩ := hreading
      exact ⟨_, _, h.read untroubled hphase, List.subset_append_left _ _⟩
    · have htakes := takes_advance untroubled.readsOnly untroubled.handles untroubled.saves atomic
        h.inHand (not_exists.mp hreading)
      exact ⟨_, _, h.of_takes htakes, fun _ => id⟩
  | abandon => exact steady.elim

theorem Thorough.run (h : Thorough processor.config saved course commit surveyed)
    (untroubled : processor.Untroubled) (atomic : processor.checkpoints.Atomic saved)
    (actions : List Action) (steady : ∀ action ∈ actions, action.Steady)
    (few : ((course.run processor actions).written.length : Int) < Int64.maxValue.toInt) :
    ∃ commit' surveyed', Thorough processor.config saved (course.run processor actions) commit'
      surveyed' ∧ surveyed ⊆ surveyed' := by
  induction actions generalizing course commit surveyed with
  | nil => exact ⟨commit, surveyed, h, fun _ => id⟩
  | cons action rest ih =>
    have fewStep : ((course.step processor action).written.length : Int) < Int64.maxValue.toInt :=
      few_before untroubled.readsOnly atomic few
    obtain ⟨commit', surveyed', hstep, hsub⟩ := h.step untroubled atomic
      (steady action List.mem_cons_self) fewStep
    obtain ⟨commit'', surveyed'', hrun, hsub'⟩ :=
      ih hstep (fun other hother => steady other (List.mem_cons_of_mem _ hother)) few
    exact ⟨commit'', surveyed'', hrun, List.Subset.trans hsub hsub'⟩

end

/-- **What becomes of the records that a pass could read**: when nothing fails, a record that was stored
when some pass read the stream is handled by the end of that pass, unless a record that was handled
before it was appended stands at its position or beyond; and then it is not handled later either. What is
noted as handled is what the handler went through. -/
theorem handled_iff_ahead {saved : String → κ → Option Checkpoint} (config : ProcessorConfig)
    (unfiltered : config.filter = none) (checkpointStore : CheckpointStore κ)
    (atomic : checkpointStore.Atomic saved)
    (saves : ∀ checkpoint checkpoints, (checkpointStore.save checkpoint checkpoints).1 = .ok ())
    (handler : Handler η) (handles : ∀ record state, (handler record state).1 = .ok ())
    (now : Timestamp) (fresh : EventId) (before : List Write) (checkpoints : κ)
    (absent : saved config.name checkpoints = none) (state : η) (earlier later : List Action)
    (steady : ∀ action ∈ earlier ++ .advance :: later, action.Steady)
    (few : (((start before checkpoints state).run (.inMemory config checkpointStore handler now fresh)
      (earlier ++ .advance :: later)).written.length : Int) < Int64.maxValue.toInt) :
    let processor := Processor.inMemory config checkpointStore handler now fresh
    let reading := (start before checkpoints state).run processor earlier
    let course := (start before checkpoints state).run processor (earlier ++ .advance :: later)
    (∃ checkpoint, reading.pass = some (.reading checkpoint)) → course.pass = none →
      course.Truthful handler state ∧ ∀ record ∈ reading.place.store.readable config.stream,
        record ∈ course.handled ↔ ∀ other ∈ course.handled, other.sequence < record.sequence →
          other.positionIn config.stream < record.positionIn config.stream := by
  intro processor reading course hreading hdone
  refine ⟨truthful_run processor before checkpoints state _, fun record hrecord => ?_⟩
  have untroubled : processor.Untroubled :=
    ⟨Processor.inMemory_readsMemory .., unfiltered, handles, saves⟩
  obtain ⟨checkpoint, hphase⟩ := hreading
  have hcourse : course = (reading.advance processor).run processor later := run_append _ _
  have hwritten : reading.written.length ≤ course.written.length := by
    have hlength : reading.written.length ≤ (reading.run processor (.advance :: later)).written.length :=
      length_written_le untroubled.readsOnly atomic (.advance :: later)
    rw [hcourse]
    exact hlength
  have hbefore : (appendedBy before MemoryStore.empty).length ≤ reading.written.length := by
    have hlength : (start before checkpoints state).written.length ≤ reading.written.length :=
      length_written_le untroubled.readsOnly atomic earlier
    exact hlength
  have fewRead : (reading.written.length : Int) < Int64.maxValue.toInt :=
    Int.lt_of_le_of_lt (Int.ofNat_le.mpr hwritten) few
  obtain ⟨commit, surveyed, hthorough, -⟩ :=
    (thorough_start config state absent (by omega)).run untroubled atomic earlier
      (fun action haction => steady action (List.mem_append_left _ haction)) fewRead
  -- this read surveys the stream, and what was surveyed once stays so
  obtain ⟨commit', surveyed', hthorough', hsub⟩ := (hthorough.read untroubled hphase).run untroubled
    atomic later (fun action haction =>
      steady action (List.mem_append_right _ (List.mem_cons_of_mem _ haction))) (hcourse ▸ few)
  rw [← hcourse] at hthorough'
  have htaken : course.taken = course.handled := taken_of_remaining_nil (by rw [remaining, hdone])
  have htrail := hthorough'.trail
  rw [htaken] at htrail
  obtain ⟨hstored, -⟩ := mem_readable.mp hrecord
  exact htrail.mem_iff (hsub (List.mem_append_right _ hrecord)) (start_lt_positionIn
    (hthorough.sound.numbered record hstored).1 (hthorough.sound.positive record hstored) _)

/-- A processor that notes the ids it handles. -/
def followingConfig : ProcessorConfig := ⟨"p", ⟨"a"⟩, none, .afterHandling⟩

def followingHandler : Handler (List EventId) := fun record seen => (.ok (), seen ++ [record.id])

/-- Two records are handled; then the stream is deleted, and a third record begins it anew. -/
def startingOver : List Action :=
  [.write (.append ⟨"a"⟩ [⟨⟨"1"⟩, "t", .null, .empty⟩, ⟨⟨"2"⟩, "t", .null, .empty⟩] none default),
    .begin, .advance, .advance, .advance, .advance, .advance, .advance, .advance,
    .write (.delete ⟨"a"⟩ default ⟨"m"⟩),
    .write (.append ⟨"a"⟩ [⟨⟨"3"⟩, "t", .null, .empty⟩] none default), .begin, .advance]

/-- The course when its second pass is about to read, and after it did what was left to do. -/
def startedOver (later : List Action) : Course CheckpointTable (List EventId) :=
  (start [] .empty []).run (.inMemory followingConfig CheckpointTable.store followingHandler default
    default) (startingOver ++ later)

/-- The third record can be read, and no pass handles it. -/
theorem handled_iff_ahead_sample :
    (∀ action ∈ startingOver ++ [.advance, .advance], action.Steady) ∧
      ((startedOver [.advance, .advance]).written.length : Int) < Int64.maxValue.toInt ∧
      (startedOver []).pass = some (.reading ⟨"p", ⟨"a"⟩, ⟨1⟩⟩) ∧
      (startedOver [.advance, .advance]).pass = none ∧
      (startedOver [.advance, .advance]).place.handler = [⟨"1"⟩, ⟨"2"⟩] ∧
      (startedOver [.advance, .advance]).Truthful followingHandler [] ∧
      ∃ record ∈ (startedOver []).place.store.readable ⟨"a"⟩, record.id = ⟨"3"⟩ ∧
        record ∉ (startedOver [.advance, .advance]).handled ∧
        (record ∈ (startedOver [.advance, .advance]).handled ↔
          ∀ other ∈ (startedOver [.advance, .advance]).handled, other.sequence < record.sequence →
            other.positionIn ⟨"a"⟩ < record.positionIn ⟨"a"⟩) :=
  have steady : ∀ action ∈ startingOver ++ [.advance, .advance], action.Steady := by decide
  have few : ((startedOver [.advance, .advance]).written.length : Int) < Int64.maxValue.toInt := by
    decide
  have stored : (⟨⟨⟨"3"⟩, "t", .null, .empty⟩, ⟨"a"⟩, ⟨0⟩, ⟨4⟩, default⟩ : Record)
      ∈ (startedOver []).place.store.readable ⟨"a"⟩ := by decide
  have holds := handled_iff_ahead followingConfig rfl CheckpointTable.store CheckpointTable.atomic
    (fun _ _ => rfl) followingHandler (fun _ _ => rfl) default default [] .empty rfl [] startingOver [.advance]
    steady few ⟨_, rfl⟩ rfl
  ⟨steady, few, rfl, rfl, rfl, holds.1, _, stored, rfl, by decide, holds.2 _ stored⟩

end Course

end EventJournal
