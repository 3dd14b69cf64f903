import EventJournal.Proofs.Process.Handings
import EventJournal.Proofs.Process.Taken

/-!
# A checkpoint only goes forward

A pass commits the positions of the groups that it read, and it read what lies beyond its checkpoint, in
order. What others write between its steps does not enter into this: the plan is made at the read, and a
stream that is deleted and started over, or a store that is cleared, only makes the next read give less.
So every save lies further on than the checkpoint that is kept, whatever fails and whatever is abandoned.

* `commits_groups` — the plan of a pass commits the positions of its sources, once each and in order.
* `Course.Climbing` — the invariant: the positions that a pass will still commit ascend from the
  checkpoint that is kept. `Climbing.move` and `Climbing.write` keep it.
* `Course.Forward` — what is kept is as it was, or further on.
* `saves_go_forward` — the main statement.
-/

namespace EventJournal

open MemoryStore PassAction

/-! ## What a plan commits -/

namespace PassAction

/-- The position that an action commits. -/
def committed? : PassAction → Option Position
  | handle _ _ => none
  | commit position => some position

/-- A group is committed once. -/
theorem commits_group (strategy : CommitStrategy) (position : Position) (records : List Record) :
    (group strategy position records).filterMap committed? = [position] := by
  have hnone : (records.map (handle · position)).filterMap committed? = [] := by
    rw [List.filterMap_map, List.filterMap_eq_nil_iff]
    intro record _
    rfl
  cases strategy with
  | beforeHandling =>
    show position :: (records.map (handle · position)).filterMap committed? = _
    rw [hnone]
  | afterHandling =>
    show (records.map (handle · position) ++ [commit position]).filterMap committed? = _
    rw [List.filterMap_append, hnone]
    rfl

/-- The groups of some sources are committed one after another. -/
theorem commits_groups (strategy : CommitStrategy) (stream : StreamId)
    (outputs : Record → List Record) (sources : List Record) :
    (groups strategy stream outputs sources).filterMap committed?
      = sources.map (·.positionIn stream) := by
  induction sources with
  | nil => rfl
  | cons source later ih =>
    rw [groups, List.flatMap_cons, List.filterMap_append, commits_group]
    exact congrArg (source.positionIn stream :: ·) ih

end PassAction

/-! ## What a step does to the checkpoints -/

/-- The checkpoint that the next step of a pass saves. -/
def PassPhase.saving : PassPhase → Option Checkpoint
  | .acting checkpoint (.commit position :: _) => some { checkpoint with position }
  | _ => none

namespace Processor

variable {σ κ η : Type} (processor : Processor σ κ η) (place : Workplace σ κ η)

theorem checkpoint_snd (checkpoints : κ) :
    (processor.checkpoint checkpoints).2
      = (processor.checkpoints.load processor.config.name checkpoints).2 := by
  unfold checkpoint
  split <;> rename_i hload <;> rw [hload]

theorem handle_checkpoints (record : Record) (position : Position) :
    (processor.handle record position place).state.checkpoints = place.checkpoints := by
  rw [handle_state]

theorem commit_checkpoints (checkpoint : Checkpoint) (position : Position) :
    (processor.commit checkpoint position place).state.checkpoints
      = (processor.checkpoints.save { checkpoint with position } place.checkpoints).2 := by
  unfold commit
  dsimp only
  split <;> rename_i hsave <;> rw [hsave]

/-- A step that goes on when it succeeds ends no pass well. -/
theorem passAfter_goesOn {α : Type} {answer : Answer (Workplace σ κ η) α} {next : α → PassPhase}
    (goesOn : ∀ value outcome, next value ≠ .ended outcome) (reached : Checkpoint) :
    (passAfter answer next).1.phase ≠ .ended (.ok reached) := by
  intro h
  unfold passAfter at h
  cases houtcome : answer.outcome with
  | error error =>
    rw [houtcome] at h
    cases h
  | ok value =>
    rw [houtcome] at h
    exact goesOn value (.ok reached) h

end Processor

namespace Course

variable {κ η : Type} {processor : Processor MemoryStore κ η} {config : ProcessorConfig}
  {saved : String → κ → Option Checkpoint} {outputs : Record → List Record}
  {course course' course'' : Course κ η} {checkpoint : Checkpoint}

/-- The checkpoint that the pass under way saves in its next step. -/
def saving (course : Course κ η) : Option Checkpoint := course.pass.bind (·.saving)

/-- A pass that saves is at a commit. -/
theorem saving_eq_some (h : course.saving = some checkpoint) :
    ∃ old position rest, course.pass = some (.acting old (.commit position :: rest)) ∧
      checkpoint = { old with position } := by
  obtain ⟨phase, hphase, hsaving⟩ := Option.bind_eq_some_iff.mp h
  unfold PassPhase.saving at hsaving
  split at hsaving
  · cases hsaving
    exact ⟨_, _, _, hphase, rfl⟩
  · cases hsaving

/-- What is said to be saved is saved. -/
theorem advance_saving (h : course.saving = some checkpoint) :
    (course.advance processor).place.checkpoints
      = (processor.checkpoints.save checkpoint course.place.checkpoints).2 := by
  obtain ⟨old, position, rest, hphase, rfl⟩ := saving_eq_some h
  have hplace := (advance_of_answer processor (processor.act old (.commit position) course.place)
    (.acting · rest) hphase rfl (fun _ _ h => by cases h)).1
  rw [hplace]
  exact processor.commit_checkpoints course.place old position

/-- Nothing else is saved: any other step leaves the checkpoints alone, or loads one. -/
theorem advance_not_saving (h : course.saving = none) :
    (course.advance processor).place.checkpoints = course.place.checkpoints ∨
      (course.advance processor).place.checkpoints
        = (processor.checkpoints.load processor.config.name course.place.checkpoints).2 := by
  cases hphase : course.pass with
  | none =>
    left
    rw [advance, hphase]
    rfl
  | some phase =>
    cases phase with
    | loading =>
      have hplace := (advance_of_answer processor (processor.load course.place) .reading hphase rfl
        (fun _ _ h => by cases h)).1
      right
      rw [hplace]
      exact processor.checkpoint_snd course.place.checkpoints
    | reading checkpoint =>
      have hplace := (advance_of_answer processor (processor.prepare checkpoint course.place)
        (.acting checkpoint) hphase rfl (fun _ _ h => by cases h)).1
      left
      rw [hplace]
      rfl
    | acting checkpoint actions =>
      cases actions with
      | nil =>
        left
        rw [advance, hphase]
        exact congrArg Workplace.checkpoints (place_after ..)
      | cons action rest =>
        cases action with
        | handle record position =>
          have hplace := (advance_of_answer processor
            (processor.act checkpoint (.handle record position) course.place) (.acting · rest) hphase
            rfl (fun _ _ h => by cases h)).1
          left
          rw [hplace]
          exact processor.handle_checkpoints course.place record position
        | commit position =>
          rw [saving, hphase] at h
          cases h
    | ended outcome =>
      left
      rw [advance, hphase]
      rfl

/-- A pass that returns well has done all that it planned, and returns the checkpoint in hand. -/
theorem acting_of_returned {reached : Checkpoint}
    (h : course.returned processor = some (.ok reached)) :
    course.pass = some (.acting reached []) := by
  unfold returned at h
  split at h
  · rename_i outcome place samples hstep
    cases h
    obtain ⟨phase, hphase, hstep⟩ := Option.bind_eq_some_iff.mp hstep
    have hended : ∀ view log, processor.passStep ⟨phase, course.place⟩ = some (view, log) →
        view.phase = .ended (.ok reached) := by
      intro view log hview
      rw [hstep] at hview
      cases hview
      rfl
    rw [hphase]
    cases phase with
    | loading =>
      exact absurd (hended _ _ rfl) (Processor.passAfter_goesOn (fun _ _ h => by cases h) reached)
    | reading checkpoint =>
      exact absurd (hended _ _ rfl) (Processor.passAfter_goesOn (fun _ _ h => by cases h) reached)
    | acting checkpoint actions =>
      cases actions with
      | nil =>
        cases hstep
        rfl
      | cons action rest =>
        exact absurd (hended _ _ rfl) (Processor.passAfter_goesOn (fun _ _ h => by cases h) reached)
    | ended outcome => cases hstep
  · cases h

/-! ## Going forward -/

/-- What is kept for a processor stayed as it was, or its position is further on. -/
def Forward (config : ProcessorConfig) (saved : String → κ → Option Checkpoint)
    (course course' : Course κ η) : Prop :=
  saved config.name course'.place.checkpoints = saved config.name course.place.checkpoints ∨
    ∃ position, saved config.name course'.place.checkpoints
        = some ⟨config.name, config.stream, position⟩ ∧
      (course.persisted config saved).position < position

theorem Forward.trans (h : Forward config saved course course')
    (h' : Forward config saved course' course'') : Forward config saved course course'' := by
  rcases h' with hkept' | ⟨position', hsaved', hlt'⟩
  · rw [Forward, hkept']
    exact h
  · refine .inr ⟨position', hsaved', ?_⟩
    rcases h with hkept | ⟨position, hsaved, hlt⟩
    · rw [persisted, persisted_congr config hkept] at hlt'
      exact hlt'
    · rw [persisted, ProcessorConfig.persisted, hsaved] at hlt'
      exact Std.lt_trans hlt hlt'

/-- The store is sound, the pass under way works with the checkpoint that is kept, and what it will still
commit ascends from there. -/
structure Climbing (config : ProcessorConfig) (saved : String → κ → Option Checkpoint)
    (course : Course κ η) : Prop where
  sound : course.place.store.Sound
  next : course.place.store.nextSequence.toInt ≤ course.written.length + 1
  inHand : ∀ checkpoint ∈ course.inHand,
    checkpoint = course.persisted config saved ∧ checkpoint.stream = config.stream
  ascending : ((course.persisted config saved).position
    :: course.remaining.filterMap committed?).Pairwise (· < ·)

/-- Nobody begins in the middle of a pass. -/
theorem climbing_start (config : ProcessorConfig) (before : List Write) (checkpoints : κ) (handler : η)
    (few : ((start before checkpoints handler).written.length : Int) < Int64.maxValue.toInt) :
    Climbing config saved (start before checkpoints handler) := by
  obtain ⟨hsound, hnext⟩ := Sound.run_empty before few
  exact ⟨hsound, hnext, nofun, List.pairwise_singleton ..⟩

/-- Whatever is written, the plan of a pass stays what it is. -/
theorem Climbing.write (h : Climbing config saved course) {call : Write}
    (few : ((course.write call).written.length : Int) < Int64.maxValue.toInt) :
    Climbing config saved (course.write call) := by
  obtain ⟨-, hsound, hnext⟩ := write_sound h.sound h.next call few
  exact ⟨hsound, hnext, h.inHand, h.ascending⟩

/-- A step that saves nothing. -/
theorem Climbing.of_kept (h : Climbing config saved course)
    (store : course'.place.store = course.place.store) (written : course'.written = course.written)
    (kept : saved config.name course'.place.checkpoints = saved config.name course.place.checkpoints)
    (inHand : ∀ checkpoint ∈ course'.inHand,
      checkpoint = course.persisted config saved ∧ checkpoint.stream = config.stream)
    (ascending : ((course.persisted config saved).position
      :: course'.remaining.filterMap committed?).Pairwise (· < ·)) :
    Climbing config saved course' ∧ Forward config saved course course' := by
  have hsame : course'.persisted config saved = course.persisted config saved :=
    persisted_congr config kept
  refine ⟨⟨?_, ?_, ?_, ?_⟩, .inl kept⟩
  · rw [store]
    exact h.sound
  · rw [store, written]
    exact h.next
  · rw [hsame]
    exact inHand
  · rw [hsame]
    exact ascending

/-- A step that leaves no pass at work saves nothing. -/
theorem Climbing.of_idle (h : Climbing config saved course)
    (store : course'.place.store = course.place.store) (written : course'.written = course.written)
    (kept : saved config.name course'.place.checkpoints = saved config.name course.place.checkpoints)
    (nothing : course'.inHand = none) (done : course'.remaining = []) :
    Climbing config saved course' ∧ Forward config saved course course' := by
  refine h.of_kept store written kept ?_ ?_
  · intro checkpoint hcheckpoint
    rw [nothing] at hcheckpoint
    cases hcheckpoint
  · rw [done]
    exact List.pairwise_singleton ..

/-- What a pass read lies beyond its checkpoint, and is planned in order. -/
theorem ascending_plan (hshows : processor.Shows outputs) (sound : course.place.store.Sound)
    {records : List Record}
    (read : (processor.readAfter checkpoint.position course.place.store).outcome = .ok records) :
    (checkpoint.position
      :: (plan processor.config.strategy processor.config.stream records).filterMap
          committed?).Pairwise (· < ·) := by
  obtain ⟨sources, ahead, -, hplan⟩ :=
    hshows.plan sound (fun _ hrecord => hrecord) processor.config.strategy read
  rw [hplan, commits_groups, List.pairwise_cons, List.pairwise_map]
  constructor
  · intro position hposition
    obtain ⟨source, hsource, rfl⟩ := List.mem_map.mp hposition
    exact ahead.beyond source hsource
  · exact ahead.ordered.imp fun hab => hab.1

/-- The checkpoint that a pass saves is the processor's, and further on than the one that is kept. -/
theorem Climbing.further (h : Climbing processor.config saved course)
    (keeps : processor.checkpoints.Keeps saved) {position : Position} {rest : List PassAction}
    (phase : course.pass = some (.acting checkpoint (.commit position :: rest))) :
    ({ checkpoint with position } : Checkpoint)
        = ⟨processor.config.name, processor.config.stream, position⟩ ∧
      (course.persisted processor.config saved).position < position := by
  obtain ⟨hkept, hstream⟩ := h.inHand checkpoint (mem_inHand_of_acting phase)
  have hid : checkpoint.id = processor.config.name := by
    rw [hkept]
    exact keeps.persisted_id processor.config course.place.checkpoints
  have hascending := h.ascending
  rw [remaining, phase] at hascending
  refine ⟨?_, (List.pairwise_cons.mp hascending).1 position List.mem_cons_self⟩
  rw [← hid, ← hstream]

/-- A save that succeeds takes the checkpoint forward, and the rest of the plan ascends from there. -/
theorem Climbing.committed (h : Climbing processor.config saved course)
    (keeps : processor.checkpoints.Keeps saved) {position : Position} {rest : List PassAction}
    {checkpoints : κ} (phase : course.pass = some (.acting checkpoint (.commit position :: rest)))
    (save : processor.checkpoints.save { checkpoint with position } course.place.checkpoints
      = (.ok (), checkpoints)) :
    let next : Course κ η := { course with
      pass := some (.acting { checkpoint with position } rest), place.checkpoints := checkpoints }
    Climbing processor.config saved next ∧ Forward processor.config saved course next := by
  intro next
  obtain ⟨hsaving, hfurther⟩ := h.further keeps phase
  rw [hsaving] at save
  have hsaved : saved processor.config.name checkpoints
      = some ⟨processor.config.name, processor.config.stream, position⟩ := keeps.save save
  have hpersisted : next.persisted processor.config saved
      = ⟨processor.config.name, processor.config.stream, position⟩ := by
    show (saved processor.config.name checkpoints).getD _ = _
    rw [hsaved]
    rfl
  refine ⟨⟨h.sound, h.next, ?_, ?_⟩, .inr ⟨position, hsaved, hfurther⟩⟩
  · intro other hother
    cases hother
    rw [hpersisted, hsaving]
    exact ⟨rfl, rfl⟩
  · have hascending := h.ascending
    rw [remaining, phase] at hascending
    rw [hpersisted]
    exact (List.pairwise_cons.mp hascending).2

/-- Every move of the pass keeps what holds, and goes forward. -/
theorem Climbing.move (h : Climbing processor.config saved course) (hshows : processor.Shows outputs)
    (keeps : processor.checkpoints.Keeps saved) (move : Move processor saved course course') :
    Climbing processor.config saved course' ∧ Forward processor.config saved course course' := by
  cases move with
  | idle => exact ⟨h, .inl rfl⟩
  | begun fresh => exact h.of_idle rfl rfl rfl rfl rfl
  | loaded phase loaded =>
    obtain ⟨hpersisted, -⟩ := Processor.checkpoint_eq_persisted keeps loaded
    obtain ⟨-, -, -, hstream⟩ := Processor.checkpoint_ok loaded
    refine h.of_kept rfl rfl (kept_of_loaded keeps loaded) ?_ (List.pairwise_singleton ..)
    intro other hother
    cases hother
    exact ⟨hpersisted, hstream⟩
  | planned phase read =>
    have hhand := h.inHand _ (mem_inHand_of_reading phase)
    refine h.of_kept rfl rfl rfl ?_ ?_
    · intro other hother
      cases hother
      exact hhand
    · rw [← hhand.1]
      exact ascending_plan hshows h.sound read
  | handled phase answer =>
    have hascending := h.ascending
    rw [remaining, phase] at hascending
    refine h.of_kept rfl rfl rfl ?_ hascending
    intro other hother
    cases hother
    exact h.inHand _ (mem_inHand_of_acting phase)
  | failed phase answer => exact h.of_idle rfl rfl rfl rfl rfl
  | committed phase save => exact h.committed keeps phase save
  | stopped kept => exact h.of_idle rfl rfl kept rfl rfl

/-- Along a run, whatever is written. -/
theorem Climbing.run (h : Climbing processor.config saved course) (hshows : processor.Shows outputs)
    (atomic : processor.checkpoints.Atomic saved) (actions : List Action)
    (few : ((course.run processor actions).written.length : Int) < Int64.maxValue.toInt) :
    Climbing processor.config saved (course.run processor actions) ∧
      Forward processor.config saved course (course.run processor actions) := by
  -- every write is permitted
  refine holds_run_of (fun reached => Climbing processor.config saved reached ∧
      Forward processor.config saved course reached) (fun _ => True) hshows.readsOnly atomic
    ?_ ?_ ⟨h, .inl rfl⟩ actions (fun _ _ => trivial) few
  · rintro reached reached' ⟨hclimbing, hforward⟩ move
    obtain ⟨hclimbing', hforward'⟩ := hclimbing.move hshows atomic.toKeeps move
    exact ⟨hclimbing', hforward.trans hforward'⟩
  · rintro reached call ⟨hclimbing, hforward⟩ - fewWritten
    exact ⟨hclimbing.write fewWritten, hforward⟩

/-- **A checkpoint only goes forward**: whatever fails or is abandoned, and whatever others append,
truncate, delete and clear, each save that a pass makes is of the processor's name and stream and lies
strictly beyond the checkpoint that is kept, and no other step of a pass saves; so what is kept never
moves back and is never written anew in its place. A pass that returns well returns the checkpoint that
the processor reports from then on. -/
theorem saves_go_forward (config : ProcessorConfig) (chain : Option UpcastChain)
    (keeps : (chain.getD .identity).KeepsPlace) (store : CheckpointStore κ) (atomic : store.Atomic saved)
    (handler : Handler η) (now : Timestamp) (fresh : EventId) (before : List Write) (checkpoints : κ)
    (state : η) (earlier later : List Action)
    (few : (((start before checkpoints state).run (.reading config chain store handler now fresh)
      (earlier ++ later)).written.length : Int) < Int64.maxValue.toInt) :
    let processor := Processor.reading config chain store handler now fresh
    let course := (start before checkpoints state).run processor earlier
    let next := course.advance processor
    (∀ checkpoint ∈ course.saving, ∃ position,
        checkpoint = ⟨config.name, config.stream, position⟩ ∧
        (course.persisted config saved).position < position ∧
        next.place.checkpoints = (store.save checkpoint course.place.checkpoints).2) ∧
      (course.saving = none → next.place.checkpoints = course.place.checkpoints ∨
        next.place.checkpoints = (store.load config.name course.place.checkpoints).2) ∧
      Forward config saved course (course.run processor later) ∧
      ∀ reached, course.returned processor = some (.ok reached) →
        (∃ loaded, (store.load config.name next.place.checkpoints).1 = .ok loaded) →
          (processor.checkpoint next.place.checkpoints).1 = .ok reached := by
  intro processor course next
  have hshows := Processor.reading_shows config keeps store handler now fresh
  rw [run_append] at few
  have fewEarlier : (course.written.length : Int) < Int64.maxValue.toInt :=
    few_before hshows.readsOnly atomic few
  have hstart : Climbing config saved (start before checkpoints state) :=
    climbing_start config before checkpoints state (few_before hshows.readsOnly atomic fewEarlier)
  obtain ⟨hclimbing, -⟩ := hstart.run hshows atomic earlier fewEarlier
  refine ⟨fun checkpoint hsaving => ?_, advance_not_saving, (hclimbing.run hshows atomic later few).2,
    fun reached hreturned loads => ?_⟩
  · obtain ⟨old, position, rest, hphase, rfl⟩ := saving_eq_some hsaving
    obtain ⟨hown, hfurther⟩ := hclimbing.further atomic.toKeeps hphase
    exact ⟨position, hown, hfurther, advance_saving hsaving⟩
  · have hphase := acting_of_returned hreturned
    obtain ⟨hkept, hstream⟩ := hclimbing.inHand reached (mem_inHand_of_acting hphase)
    have hsame : next.place = course.place := by
      show (course.advance processor).place = _
      rw [advance, hphase]
      exact place_after ..
    rw [hsame] at loads ⊢
    rw [hkept] at hstream ⊢
    exact Processor.checkpoint_of_loads atomic.toKeeps hstream loads

def ascendingConfig : ProcessorConfig := ⟨"p", ⟨"a"⟩, none, .afterHandling⟩

/-- Notes the types that it handles. -/
def listing : Handler (List String) := fun record seen => (.ok (), seen ++ [record.typeName])

/-- Sees each pair as its parts. -/
def ascendingProcessor :
    Processor MemoryStore (Faulty CheckpointOperation CheckpointTable) (List String) :=
  .reading ascendingConfig (some UpcastChain.splitting) CheckpointTable.store.unreliable listing default
    default

def ascendingBefore : List Write := [.append ⟨"a"⟩ [⟨⟨"1"⟩, "pair", .null, .empty⟩] none default]

/-- The first save fails. -/
def ascendingCheckpoints : Faulty CheckpointOperation CheckpointTable :=
  ⟨[⟨.save, .checkpoint "p" (.streamNotFound ⟨"a"⟩), 1⟩], .empty⟩

/-- After the first pass the store is cleared and two pairs are appended. When the second pass is at the
commit of the second one, the stream is deleted. -/
def ascendingActions : List Action :=
  [.begin, .advance, .advance, .advance, .advance, .advance, .write .clear,
    .write (.append ⟨"a"⟩ [⟨⟨"1"⟩, "pair", .null, .empty⟩, ⟨⟨"2"⟩, "pair", .null, .empty⟩] none default),
    .begin, .advance, .advance, .advance, .advance, .advance, .advance, .advance,
    .write (.delete ⟨"a"⟩ default ⟨"m"⟩)]

/-- The second position is saved as well; the pass returns in its next step. -/
def ascendedActions : List Action := ascendingActions ++ [.advance]

/-- It does, the stream is started over, and another pass begins. -/
def ascendingLater : List Action :=
  [.advance, .write (.append ⟨"a"⟩ [⟨⟨"3"⟩, "pair", .null, .empty⟩] none default), .begin, .advance,
    .advance, .advance]

def ascendingCourse (actions : List Action) :
    Course (Faulty CheckpointOperation CheckpointTable) (List String) :=
  (start ascendingBefore ascendingCheckpoints []).run ascendingProcessor actions

def ascendingSaved : String → Faulty CheckpointOperation CheckpointTable → Option Checkpoint :=
  fun id faulty => faulty.inner.load id

/-- The pass saves the second position, and returns the checkpoint in the step after that. -/
theorem saves_go_forward_sample :
    let saving := ascendingCourse ascendingActions
    let returning := ascendingCourse ascendedActions
    ((ascendingCourse (ascendedActions ++ ascendingLater)).written.length : Int)
        < Int64.maxValue.toInt ∧
      saving.saving = some ⟨"p", ⟨"a"⟩, ⟨1⟩⟩ ∧
      (saving.persisted ascendingConfig ascendingSaved).position = ⟨0⟩ ∧
      (saving.persisted ascendingConfig ascendingSaved).position < ⟨1⟩ ∧
      returning.pass = some (.acting ⟨"p", ⟨"a"⟩, ⟨1⟩⟩ []) ∧
      (ascendingProcessor.checkpoint (returning.advance ascendingProcessor).place.checkpoints).1
        = .ok ⟨"p", ⟨"a"⟩, ⟨1⟩⟩ ∧
      Forward ascendingConfig ascendingSaved returning (returning.run ascendingProcessor ascendingLater) := by
  intro saving returning
  have atomic := CheckpointTable.atomic.unreliable
  have few : ((ascendingCourse (ascendedActions ++ ascendingLater)).written.length : Int)
      < Int64.maxValue.toInt := by decide
  have fewSaving : ((ascendingCourse ascendedActions).written.length : Int)
      < Int64.maxValue.toInt := by decide
  have hsaving : saving.saving = some ⟨"p", ⟨"a"⟩, ⟨1⟩⟩ := by decide
  have hreturning : returning.pass = some (.acting ⟨"p", ⟨"a"⟩, ⟨1⟩⟩ []) := by rfl
  have hreturned : returning.returned ascendingProcessor = some (.ok ⟨"p", ⟨"a"⟩, ⟨1⟩⟩) := by
    rw [returned, hreturning]
    rfl
  obtain ⟨hsaves, -⟩ := saves_go_forward ascendingConfig (some UpcastChain.splitting)
    UpcastChain.splitting_keepsPlace CheckpointTable.store.unreliable atomic listing default default
    ascendingBefore ascendingCheckpoints [] ascendingActions [.advance] fewSaving
  obtain ⟨-, -, hforward, hreturns⟩ := saves_go_forward ascendingConfig (some UpcastChain.splitting)
    UpcastChain.splitting_keepsPlace CheckpointTable.store.unreliable atomic listing default default
    ascendingBefore ascendingCheckpoints [] ascendedActions ascendingLater few
  obtain ⟨position, hcheckpoint, hlt, -⟩ := hsaves _ hsaving
  cases hcheckpoint
  refine ⟨few, hsaving, by decide, hlt, hreturning, ?_, hforward⟩
  exact hreturns _ hreturned ⟨_, rfl⟩

end Course

end EventJournal
