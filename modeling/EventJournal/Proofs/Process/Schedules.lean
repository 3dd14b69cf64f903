import EventJournal.Proofs.Process.Handings
import EventJournal.Proofs.Process.Taken

/-!
# Passes at any moment

Whether a processor is made to catch up after every append or once at the end, and whether records are
appended between two passes or between two steps of one, it hands over the same records in the same order:
those of a forward read from the start.

* `MemoryStore.Sound.flatMap_seam` — a read from where some records ended goes on where they end, also when
  the last of them show nothing.
* `Course.Abreast` — the invariant: what the processor took is what the beginning of its stream shows.
* `Course.Abreast.handled_prefix` — at every moment a beginning of the read is handled.
* `Course.handed_eq_read` — the main statement: after a pass all of it is, each record once and in order.
-/

namespace EventJournal

open MemoryStore PassAction

/-- A reader that came by what the first records of a stream show, and goes on from the last position that
it saw, comes by what the other records show. Records that show nothing do not move it; it reads them
again. -/
theorem MemoryStore.Sound.flatMap_seam {store : MemoryStore} (sound : store.Sound) {stream : StreamId}
    {outputs : Record → List Record}
    (placed : ∀ source output, output ∈ outputs source →
      output.positionIn stream = source.positionIn stream)
    {surveyed : List Record} (first : surveyed <+: store.readable stream) :
    surveyed.flatMap outputs
        ++ (store.beyond stream (cursorAfter stream .start (surveyed.flatMap outputs))).flatMap outputs
      = (store.readable stream).flatMap outputs := by
  obtain ⟨rest, hrest⟩ := first
  have hordered := sound.readable_ordered stream
  rw [← hrest] at hordered
  obtain ⟨hsurveyed, -, hacross⟩ := List.pairwise_append.mp hordered
  -- of the first records, those beyond the cursor show nothing
  have hbehind : (surveyed.filter fun source => cursorAfter stream .start (surveyed.flatMap outputs)
      < source.positionIn stream).flatMap outputs = [] := by
    refine List.flatMap_eq_nil_iff.mpr fun source hsource => ?_
    obtain ⟨hmem, hbeyond⟩ := List.mem_filter.mp hsource
    refine List.eq_nil_iff_forall_not_mem.mpr fun output houtput => ?_
    have hle := le_last_position (ordered_flatMap placed hsurveyed) .start
      (List.mem_flatMap.mpr ⟨source, hmem, houtput⟩)
    rw [placed source output houtput] at hle
    exact Std.not_lt.mpr hle (of_decide_eq_true hbeyond)
  -- all other records lie beyond it
  have hahead : (rest.filter fun source => cursorAfter stream .start (surveyed.flatMap outputs)
      < source.positionIn stream) = rest := by
    refine List.filter_eq_self.mpr fun source hsource => decide_eq_true ?_
    cases hlast : (surveyed.flatMap outputs).getLast? with
    | none =>
      have hmem : source ∈ store.readable stream := by
        rw [← hrest]
        exact List.mem_append_right _ hsource
      have hstored := (mem_readable.mp hmem).1
      rw [cursorAfter, hlast]
      exact start_lt_positionIn (sound.numbered source hstored).1 (sound.positive source hstored) stream
    | some last =>
      obtain ⟨earlier, hearlier, houtput⟩ := List.mem_flatMap.mp (List.mem_of_getLast? hlast)
      rw [cursorAfter, hlast, Option.map_some, Option.getD_some, placed earlier last houtput]
      exact hacross earlier hearlier source hsource
  rw [beyond, ← hrest, List.filter_append, List.flatMap_append, List.flatMap_append, hbehind, hahead,
    List.nil_append]

/-- A read from the start gives what all records of a stream show, and fails only when there is no such
stream. -/
theorem MemoryStore.Sound.read_from_start {store : MemoryStore} (sound : store.Sound)
    {chain : Option UpcastChain} (reshapes : (chain.getD .identity).Reshapes) (now : Timestamp)
    (fresh : EventId) (stream : StreamId) (filter : Option TypeFilter) :
    match ((reader chain now fresh).read stream { ReadOptions.forward with filter } store).outcome with
      | .ok slice => (store.readable stream).flatMap ((chain.getD .identity).shown filter) = slice.records
      | .error error => error = .streamNotFound stream ∧
        (store.readable stream).flatMap ((chain.getD .identity).shown filter) = [] := by
  cases hknown : stream.isGlobal || (store.version? stream).isSome with
  | true =>
    obtain ⟨slice, hread⟩ := reader_of_known reshapes now fresh
      { ReadOptions.forward with filter := filter } hknown
    have hplaced : ∀ source output, output ∈ (chain.getD .identity).shown filter source →
        output.positionIn stream = source.positionIn stream :=
      fun _ _ h => (reshapes.keepsPlace.made (List.mem_of_mem_filter h)).2 stream
    have hrecords : slice.records
        = (store.beyond stream .start).flatMap ((chain.getD .identity).shown filter) := read_reader hread
    rw [hread]
    dsimp only
    rw [hrecords]
    exact (sound.flatMap_seam hplaced List.nil_prefix).symm
  | false =>
    rw [reader_of_missing chain now fresh _ hknown, sound.readable_of_missing hknown]
    exact ⟨rfl, rfl⟩

/-- A processor that always reads what the stored records beyond a position show, whose handler never fails
and whose checkpoints are always saved. -/
structure Processor.Diligent {κ η : Type} (processor : Processor MemoryStore κ η)
    (outputs : Record → List Record) : Prop extends processor.Shows outputs where
  reads : ∀ {store : MemoryStore}, store.Sound → ∀ position,
    (processor.readAfter position store).outcome
      = .ok ((store.beyond processor.config.stream position).flatMap outputs)
  handles : ∀ record handler, (processor.handler record handler).1 = .ok ()
  saves : ∀ checkpoint checkpoints, (processor.checkpoints.save checkpoint checkpoints).1 = .ok ()

theorem Processor.reading_diligent {κ η : Type} (config : ProcessorConfig) {chain : Option UpcastChain}
    (reshapes : (chain.getD .identity).Reshapes) {checkpoints : CheckpointStore κ}
    (saves : ∀ checkpoint state, (checkpoints.save checkpoint state).1 = .ok ())
    {handler : Handler η} (handles : ∀ record state, (handler record state).1 = .ok ())
    {now : Timestamp} {fresh : EventId} :
    (Processor.reading config chain checkpoints handler now fresh).Diligent
      ((chain.getD .identity).shown config.filter) where
  toShows := Processor.reading_shows config reshapes.keepsPlace checkpoints handler now fresh
  reads sound position :=
    Processor.reading_readAfter config reshapes checkpoints handler now fresh sound position
  handles := handles
  saves := saves

/-- A plan is carried out to its end. -/
theorem Processor.Diligent.actAll_ok {κ η : Type} {processor : Processor MemoryStore κ η}
    {outputs : Record → List Record} (diligent : processor.Diligent outputs)
    (actions : List PassAction) (checkpoint : Checkpoint) (place : Workplace MemoryStore κ η) :
    ∃ reached, (processor.actAll actions checkpoint place).outcome = .ok reached := by
  induction actions generalizing checkpoint place with
  | nil => exact ⟨checkpoint, rfl⟩
  | cons action rest ih =>
    obtain ⟨next, hact⟩ : ∃ next, (processor.act checkpoint action place).outcome = .ok next := by
      cases action with
      | handle record position =>
        have hhandles := diligent.handles record place.handler
        rw [Processor.act, Processor.handle]
        cases hresult : processor.handler record place.handler with
        | mk result handler =>
          rw [hresult] at hhandles
          cases hhandles
          exact ⟨checkpoint, rfl⟩
      | commit position =>
        have hsaves := diligent.saves { checkpoint with position } place.checkpoints
        rw [Processor.act, Processor.commit]
        cases hresult : processor.checkpoints.save { checkpoint with position } place.checkpoints with
        | mk result checkpoints =>
          rw [hresult] at hsaves
          cases hsaves
          exact ⟨{ checkpoint with position }, rfl⟩
    rw [Processor.actAll, Answer.andThen, hact]
    exact ih next _

namespace Course

variable {κ η : Type}

/-- Records are appended, passes begin and go on. -/
def Action.Appends : Action → Prop
  | .write (.append _ _ _ _) => True
  | .write _ => False
  | .begin => True
  | .advance => True
  | .abandon => False

instance (action : Action) : Decidable action.Appends :=
  match action with
  | .write (.append _ _ _ _) => inferInstanceAs (Decidable True)
  | .write (.truncate _ _ _ _) => inferInstanceAs (Decidable False)
  | .write (.delete _ _ _) => inferInstanceAs (Decidable False)
  | .write .clear => inferInstanceAs (Decidable False)
  | .begin => inferInstanceAs (Decidable True)
  | .advance => inferInstanceAs (Decidable True)
  | .abandon => inferInstanceAs (Decidable False)

/-- A whole pass, made with nothing in between. -/
def wholePass (count : Nat) : List Action := .begin :: .replicate count .advance

theorem wholePass_appends (count : Nat) : ∀ action ∈ wholePass count, action.Appends := by
  intro action haction
  rcases List.mem_cons.mp haction with rfl | hadvance
  · trivial
  · rw [List.eq_of_mem_replicate hadvance]
    trivial

theorem wholePass_calls (count : Nat) : (wholePass count).filterMap Action.call? = [] := by
  refine List.filterMap_eq_nil_iff.mpr fun action haction => ?_
  rcases List.mem_cons.mp haction with rfl | hadvance
  · rfl
  · rw [List.eq_of_mem_replicate hadvance]
    rfl

section

variable {processor : Processor MemoryStore κ η} {config : ProcessorConfig}
  {saved : String → κ → Option Checkpoint} {outputs : Record → List Record}
  {course course' : Course κ η} {surveyed : List Record}

/-- The invariant of a processor whose stream only grows: what it took is what the records that it surveyed
show, and these begin the stream. -/
structure Abreast (config : ProcessorConfig) (saved : String → κ → Option Checkpoint)
    (outputs : Record → List Record) (course : Course κ η) (surveyed : List Record) : Prop where
  sound : course.place.store.Sound
  next : course.place.store.nextSequence.toInt ≤ course.written.length + 1
  first : surveyed <+: course.place.store.readable config.stream
  taken : course.taken = surveyed.flatMap outputs
  aim : goal (course.persisted config saved).position course.remaining
    = cursorAfter config.stream .start course.taken
  inHand : ∀ checkpoint ∈ course.inHand, checkpoint = course.persisted config saved
  /-- The checkpoint that is kept is of the stream. -/
  own : (course.persisted config saved).stream = config.stream
  succeeded : ∀ handing ∈ course.handings, handing.succeeded = true

/-- What was handed over was handled. -/
theorem Abreast.handled_eq (h : Abreast config saved outputs course surveyed) :
    course.handled = course.handings.map (·.record) := by
  rw [handled, List.filter_eq_self.mpr h.succeeded]

/-- At every moment the records that were handled are the first of those that a read from the start
gives. -/
theorem Abreast.handled_prefix (h : Abreast config saved outputs course surveyed) :
    course.handled <+: (course.place.store.readable config.stream).flatMap outputs := by
  obtain ⟨rest, hrest⟩ := h.first
  have htaken : course.handled <+: surveyed.flatMap outputs := by
    rw [← h.taken]
    exact List.prefix_append _ _
  rw [← hrest, List.flatMap_append]
  exact htaken.trans (List.prefix_append _ _)

/-- Before the first pass, whatever was written before. -/
theorem abreast_start (config : ProcessorConfig) (outputs : Record → List Record) {before : List Write}
    {checkpoints : κ} (state : η) (absent : saved config.name checkpoints = none)
    (few : ((appendedBy before .empty).length : Int) < Int64.maxValue.toInt) :
    Abreast config saved outputs (start before checkpoints state) [] := by
  obtain ⟨hsound, hnext⟩ := Sound.run_empty before few
  have hpersisted : config.persisted saved checkpoints = .initial config.name config.stream := by
    rw [ProcessorConfig.persisted, absent]
    rfl
  refine ⟨hsound, hnext, List.nil_prefix, rfl, ?_, ?_, ?_, ?_⟩
  · exact congrArg Checkpoint.position hpersisted
  · intro checkpoint hnone
    cases hnone
  · exact congrArg Checkpoint.stream hpersisted
  · intro handing hnone
    cases hnone

/-- Appended records come after those that were surveyed. -/
theorem Abreast.write (h : Abreast config saved outputs course surveyed) {call : Write}
    (appends : (Action.write call).Appends)
    (few : ((course.write call).written.length : Int) < Int64.maxValue.toInt) :
    Abreast config saved outputs (course.write call) surveyed := by
  obtain ⟨-, hsound, hnext⟩ := write_sound h.sound h.next call few
  refine ⟨hsound, hnext, h.first.trans ?_, h.taken, h.aim, h.inHand, h.own, h.succeeded⟩
  cases call with
  | append stream events expected now =>
    show List.filter _ _
      <+: List.filter _ ((Write.append stream events expected now).after course.place.store).records
    rw [(Write.append stream events expected now).records_after course.place.store nofun]
    exact (List.prefix_append _ _).filter _
  | truncate => exact appends.elim
  | delete => exact appends.elim
  | clear => exact appends.elim

/-- A step that takes what some more records show, if these are the next of the stream. -/
theorem Abreast.of_takes (h : Abreast config saved outputs course surveyed) {records more : List Record}
    (takes : Takes config saved course course' records)
    (shown : surveyed.flatMap outputs ++ records = more.flatMap outputs)
    (first : more <+: course.place.store.readable config.stream) :
    Abreast config saved outputs course' more where
  sound := takes.store ▸ h.sound
  next := by
    rw [takes.store, takes.written]
    exact h.next
  first := by
    rw [takes.store]
    exact first
  taken := by rw [takes.taken, h.taken, shown]
  aim := takes.aim_eq h.aim
  inHand := takes.inHand
  own := takes.stream.trans h.own
  succeeded handing hhanding := by
    obtain ⟨more, heq, hsucceeded⟩ := takes.handings
    rw [heq] at hhanding
    rcases List.mem_append.mp hhanding with hold | hnew
    · exact h.succeeded handing hold
    · exact hsucceeded handing hnew

/-- The read of a pass surveys all of the stream. -/
theorem Abreast.read (h : Abreast processor.config saved outputs course surveyed)
    (diligent : processor.Diligent outputs) {checkpoint : Checkpoint}
    (phase : course.pass = some (.reading checkpoint)) :
    Abreast processor.config saved outputs (course.advance processor)
      (course.place.store.readable processor.config.stream) := by
  have htakes := takes_read diligent.readsOnly h.inHand phase
    (diligent.reads h.sound checkpoint.position)
  have hcursor := position_of_reading h.inHand h.aim phase
  rw [h.taken] at hcursor
  refine h.of_takes htakes ?_ List.prefix_rfl
  rw [hcursor]
  exact h.sound.flatMap_seam (fun _ _ houtput => (diligent.placed houtput).2) h.first

/-- Whatever happens, the processor stays abreast, and what was surveyed stays so. -/
theorem Abreast.step (h : Abreast processor.config saved outputs course surveyed)
    (diligent : processor.Diligent outputs) (atomic : processor.checkpoints.Atomic saved)
    {action : Action} (appends : action.Appends)
    (few : ((course.step processor action).written.length : Int) < Int64.maxValue.toInt) :
    ∃ surveyed', Abreast processor.config saved outputs (course.step processor action) surveyed' ∧
      surveyed <+: surveyed' := by
  cases action with
  | write call => exact ⟨surveyed, h.write appends few, List.prefix_rfl⟩
  | begin =>
    have htakes := takes_begin atomic.toKeeps h.inHand
    exact ⟨surveyed, h.of_takes htakes (List.append_nil _) h.first, List.prefix_rfl⟩
  | advance =>
    by_cases hreading : ∃ checkpoint, course.pass = some (.reading checkpoint)
    · obtain ⟨checkpoint, hphase⟩ := hreading
      exact ⟨_, h.read diligent hphase, h.first⟩
    · have htakes := takes_advance diligent.readsOnly diligent.handles diligent.saves atomic h.inHand
        (not_exists.mp hreading)
      exact ⟨surveyed, h.of_takes htakes (List.append_nil _) h.first, List.prefix_rfl⟩
  | abandon => exact appends.elim

theorem Abreast.run (h : Abreast processor.config saved outputs course surveyed)
    (diligent : processor.Diligent outputs) (atomic : processor.checkpoints.Atomic saved)
    (actions : List Action) (appends : ∀ action ∈ actions, action.Appends)
    (few : ((course.run processor actions).written.length : Int) < Int64.maxValue.toInt) :
    ∃ surveyed', Abreast processor.config saved outputs (course.run processor actions) surveyed' ∧
      surveyed <+: surveyed' := by
  induction actions generalizing course surveyed with
  | nil => exact ⟨surveyed, h, List.prefix_rfl⟩
  | cons action rest ih =>
    have fewStep : ((course.step processor action).written.length : Int) < Int64.maxValue.toInt :=
      few_before diligent.readsOnly atomic few
    obtain ⟨surveyed', hstep, hfirst⟩ := h.step diligent atomic (appends action List.mem_cons_self)
      fewStep
    obtain ⟨surveyed'', hrun, hfirst'⟩ :=
      ih hstep (fun other hother => appends other (List.mem_cons_of_mem _ hother)) few
    exact ⟨surveyed'', hrun, hfirst.trans hfirst'⟩

/-! ## Whole passes -/

/-- A pass succeeds unless its checkpoint cannot be loaded. -/
theorem Abreast.catchUp_ok (h : Abreast processor.config saved outputs course surveyed)
    (diligent : processor.Diligent outputs) (keeps : processor.checkpoints.Keeps saved)
    (loads : ∃ loaded, (processor.checkpoints.load processor.config.name course.place.checkpoints).1
      = .ok loaded) :
    ∃ reached, (processor.catchUp course.place).outcome = .ok reached := by
  have hload : (processor.load course.place).outcome = .ok (course.persisted processor.config saved) :=
    Processor.checkpoint_of_loads keeps h.own loads
  have hstore : (processor.load course.place).state.store = course.place.store := rfl
  have hprepare : (processor.prepare (course.persisted processor.config saved)
      (processor.load course.place).state).outcome = _ :=
    congrArg (Except.map _) (diligent.reads (hstore ▸ h.sound) _)
  rw [Processor.catchUp, Answer.andThen, hload]
  dsimp only
  rw [Answer.andThen, hprepare]
  exact diligent.actAll_ok _ _ _

/-- The first two steps of a pass take it to its read. -/
theorem Abreast.opening (h : Abreast processor.config saved outputs course surveyed)
    (diligent : processor.Diligent outputs) (atomic : processor.checkpoints.Atomic saved)
    (fresh : course.pass = none)
    (loads : ∃ loaded, (processor.checkpoints.load processor.config.name course.place.checkpoints).1
      = .ok loaded) :
    course.begin.pass = some .loading ∧
      (∃ checkpoint, (course.begin.advance processor).pass = some (.reading checkpoint)) ∧
      (course.begin.advance processor).place.store = course.place.store ∧
      Abreast processor.config saved outputs (course.begin.advance processor) surveyed := by
  have hbegin : course.begin = { course with pass := some .loading, given := [] } := by
    rw [begin, fresh]
  have hloading : course.begin.pass = some .loading := by rw [hbegin]
  have hunread : ∀ checkpoint, course.begin.pass ≠ some (.reading checkpoint) := by
    intro checkpoint hreading
    rw [hloading] at hreading
    cases hreading
  have htakes := takes_begin atomic.toKeeps h.inHand
  have hbegun := h.of_takes htakes (List.append_nil _) h.first
  have htakes' := takes_advance diligent.readsOnly diligent.handles diligent.saves atomic hbegun.inHand
    hunread
  refine ⟨hloading, ?_, htakes'.store.trans htakes.store,
    hbegun.of_takes htakes' (List.append_nil _) hbegun.first⟩
  have hcheckpoint := Processor.checkpoint_of_loads atomic.toKeeps h.own loads
  have hpass := (advance_of_answer processor (processor.load course.begin.place) .reading hloading rfl
    (fun _ _ h => by cases h)).2
  refine ⟨course.persisted processor.config saved, hpass.trans ?_⟩
  rw [hbegin]
  show Option.map _ (Except.toOption (processor.checkpoint course.place.checkpoints).1) = _
  rw [hcheckpoint]
  rfl

/-- A pass that is over surveyed all of the stream. -/
theorem Abreast.wholePass (h : Abreast processor.config saved outputs course surveyed)
    (diligent : processor.Diligent outputs) (atomic : processor.checkpoints.Atomic saved)
    (few : (course.written.length : Int) < Int64.maxValue.toInt) (fresh : course.pass = none)
    (loads : ∃ loaded, (processor.checkpoints.load processor.config.name course.place.checkpoints).1
      = .ok loaded)
    {count : Nat} (ended : (course.run processor (Course.wholePass count)).pass = none) :
    Abreast processor.config saved outputs (course.run processor (Course.wholePass count))
      (course.place.store.readable processor.config.stream) := by
  obtain ⟨hloading, ⟨checkpoint, hreading⟩, hsame, hloaded⟩ := h.opening diligent atomic fresh loads
  match count with
  | 0 =>
    change course.begin.pass = none at ended
    rw [hloading] at ended
    cases ended
  | 1 =>
    change (course.begin.advance processor).pass = none at ended
    rw [hreading] at ended
    cases ended
  | count + 2 =>
    obtain ⟨hstore, hwritten⟩ := run_writes diligent.readsOnly atomic course
      (Course.wholePass (count + 2))
    rw [wholePass_calls] at hstore hwritten
    rw [appendedBy, List.append_nil] at hwritten
    have hread := hloaded.read diligent hreading
    rw [hsame] at hread
    obtain ⟨surveyed', hrun, hfirst⟩ := hread.run diligent atomic (.replicate count .advance)
      (fun action h => List.eq_of_mem_replicate h ▸ trivial) (hwritten ▸ few)
    -- nothing is appended meanwhile, so there is no more to survey
    have hall : surveyed' <+: course.place.store.readable processor.config.stream := by
      have hreadable := hrun.first
      change surveyed' <+: (course.run processor (Course.wholePass (count + 2))).place.store.readable _
        at hreadable
      rwa [hstore] at hreadable
    rw [hfirst.eq_of_length_le hall.length_le]
    exact hrun

/-- When all of the stream was surveyed and no pass is under way, all that it shows is handled, and as long
as nothing is written no more is handed over. -/
theorem Abreast.settled (h : Abreast processor.config saved outputs course
      (course.place.store.readable processor.config.stream))
    (diligent : processor.Diligent outputs) (atomic : processor.checkpoints.Atomic saved)
    (few : (course.written.length : Int) < Int64.maxValue.toInt) (ended : course.pass = none) :
    course.handings.map (·.record)
        = (course.place.store.readable processor.config.stream).flatMap outputs ∧
      ∀ count, (course.run processor (Course.wholePass count)).handings = course.handings := by
  have hhandled : course.handled
      = (course.place.store.readable processor.config.stream).flatMap outputs := by
    rw [← taken_of_remaining_nil (by rw [remaining, ended]), h.taken]
  refine ⟨h.handled_eq ▸ hhandled, fun count => ?_⟩
  obtain ⟨hstore, hwritten⟩ := run_writes diligent.readsOnly atomic course
    (Course.wholePass count)
  rw [wholePass_calls] at hstore hwritten
  rw [appendedBy, List.append_nil] at hwritten
  obtain ⟨surveyed', hrun, -⟩ := h.run diligent atomic (Course.wholePass count)
    (wholePass_appends count) (hwritten ▸ few)
  -- what is handled stays a beginning of the same read, and is all of it already
  have hfirst := hrun.handled_prefix
  rw [hstore] at hfirst
  have hlength : (course.run processor (Course.wholePass count)).handings.length
      ≤ course.handings.length := by
    have hle := hfirst.length_le
    change _ ≤ ((course.place.store.readable processor.config.stream).flatMap outputs).length at hle
    rw [← hhandled, hrun.handled_eq, h.handled_eq, List.length_map, List.length_map] at hle
    exact hle
  have hgrown : course.handings <+: (course.run processor (Course.wholePass count)).handings :=
    handings_prefix_run diligent.readsOnly atomic _
  exact (hgrown.eq_of_length_le hlength).symm

end

/-- **Any schedule hands over the same**: whatever was written before, however records are appended between
passes and between their steps, and whichever strategy a processor commits by, one more pass succeeds, and
then the records handed over, each with success, are those of a forward read from the start with its filter,
in the same order. The handler went through just these, and each is counted as processed. A further pass hands
over nothing and leaves the handler as it is. The passes leave no mark on the store, so this read depends on
the writes only. -/
theorem handed_eq_read {saved : String → κ → Option Checkpoint} (config : ProcessorConfig)
    (chain : Option UpcastChain) (reshapes : (chain.getD .identity).Reshapes)
    (checkpointStore : CheckpointStore κ) (atomic : checkpointStore.Atomic saved)
    (saves : ∀ checkpoint checkpoints, (checkpointStore.save checkpoint checkpoints).1 = .ok ())
    (handler : Handler η) (handles : ∀ record state, (handler record state).1 = .ok ())
    (now : Timestamp) (fresh : EventId) (before : List Write) (checkpoints : κ)
    (absent : saved config.name checkpoints = none) (state : η) (actions : List Action)
    (appends : ∀ action ∈ actions, action.Appends)
    (few : (((start before checkpoints state).run (.reading config chain checkpointStore handler now fresh)
      actions).written.length : Int) < Int64.maxValue.toInt) :
    let processor := Processor.reading config chain checkpointStore handler now fresh
    let course := (start before checkpoints state).run processor actions
    course.pass = none →
      (∃ loaded, (checkpointStore.load config.name course.place.checkpoints).1 = .ok loaded) →
        ∃ count,
          let last := course.run processor (wholePass count)
          last.pass = none ∧ last.place = (processor.catchUp course.place).state ∧
          (∃ reached, (processor.catchUp course.place).outcome = .ok reached) ∧
          last.place.store = MemoryStore.empty.run (before ++ actions.filterMap Action.call?) ∧
          (∀ handing ∈ last.handings, handing.succeeded = true) ∧
          (match ((reader chain now fresh).read config.stream
              { ReadOptions.forward with filter := config.filter } last.place.store).outcome with
            | .ok slice => last.handings.map (·.record) = slice.records
            | .error error => error = .streamNotFound config.stream ∧
              last.handings.map (·.record) = []) ∧
          handler.work (last.handings.map (·.record)) state
            = (last.handings.map (·.succeeded), last.place.handler) ∧
          last.place.stats = ⟨last.handings.length, 0⟩ ∧
          ∀ further,
            let again := last.run processor (wholePass further)
            again.handings = last.handings ∧ again.place.handler = last.place.handler ∧
              again.place.stats = last.place.stats := by
  intro processor course hpass loads
  change (course.written.length : Int) < _ at few
  have diligent : processor.Diligent _ := Processor.reading_diligent config reshapes saves handles
  -- the schedule keeps the processor abreast; the pass after it surveys the rest
  have hbefore : (appendedBy before MemoryStore.empty).length ≤ course.written.length :=
    @length_written_le _ _ processor saved (start before checkpoints state) diligent.readsOnly atomic
      actions
  obtain ⟨surveyed, habreast, -⟩ := (abreast_start config _ state absent (by omega)).run diligent
    atomic actions appends few
  obtain ⟨count, hover, hplace⟩ := @catchUp_steps _ _ processor course hpass
  obtain ⟨hstore, hwritten⟩ := run_writes diligent.readsOnly atomic course (wholePass count)
  rw [wholePass_calls] at hstore hwritten
  rw [appendedBy, List.append_nil] at hwritten
  have hlast := habreast.wholePass diligent atomic few hpass loads hover
  rw [← show (course.run processor (wholePass count)).place.store = course.place.store from hstore]
    at hlast
  obtain ⟨hhanded, hsame⟩ := hlast.settled diligent atomic (hwritten ▸ few) hover
  have htruthful : (course.run processor (wholePass count)).Truthful handler state :=
    (truthful_run processor before checkpoints state actions).run (wholePass count)
  refine ⟨count, hover, hplace, habreast.catchUp_ok diligent atomic.toKeeps loads, ?_, hlast.succeeded,
    ?_, htruthful.handler, htruthful.stats_of_succeeded hlast.succeeded, fun further =>
      ⟨hsame further, htruthful.same (htruthful.run (wholePass further)) (hsame further)⟩⟩
  · -- the writes of the schedule, in order
    show (course.run processor (wholePass count)).place.store = _
    rw [hstore, MemoryStore.run_append]
    exact (run_writes diligent.readsOnly atomic (start before checkpoints state) actions).1
  · dsimp only
    rw [hhanded]
    exact hlast.sound.read_from_start reshapes now fresh config.stream config.filter

/-- Notes the ids that it handles. -/
def collecting : Handler (List EventId) := fun record seen => (.ok (), seen ++ [record.id])

/-- A processor of the parts of pairs. -/
def pairsProcessor : Processor MemoryStore CheckpointTable (List EventId) :=
  .reading ⟨"p", ⟨"a"⟩, some (.select ["left", "right"]), .beforeHandling⟩ (some .splitting)
    CheckpointTable.store collecting default default

/-- A pair is there before the first pass. While the pass works on it, a record that is not for the processor
and another pair are appended. -/
def pairsActions : List Action :=
  [.begin, .advance, .advance, .advance, .advance,
    .write (.append ⟨"a"⟩ [⟨⟨"2"⟩, "t", .null, .empty⟩, ⟨⟨"3"⟩, "pair", .null, .empty⟩] none default),
    .advance, .advance]

def pairsCourse : Course CheckpointTable (List EventId) :=
  (start [.append ⟨"a"⟩ [⟨⟨"1"⟩, "pair", .null, .empty⟩] none default] .empty []).run pairsProcessor
    pairsActions

/-- The first pair is handed over by the first pass, the second one by the next; the handler noted both. -/
theorem handed_eq_read_sample :
    (∀ action ∈ pairsActions, action.Appends) ∧
      (pairsCourse.written.length : Int) < Int64.maxValue.toInt ∧ pairsCourse.pass = none ∧
      pairsCourse.place.handler = [⟨"1-0"⟩, ⟨"1-1"⟩] ∧
      (∃ loaded, (CheckpointTable.store.load "p" pairsCourse.place.checkpoints).1 = .ok loaded) ∧
      ∃ count,
        let last := pairsCourse.run pairsProcessor (wholePass count)
        last.handings.map (·.record.typeName) = ["left", "right", "left", "right"] ∧
          last.place.handler = [⟨"1-0"⟩, ⟨"1-1"⟩, ⟨"3-0"⟩, ⟨"3-1"⟩] ∧ last.place.stats = ⟨4, 0⟩ ∧
          ∀ further,
            let again := last.run pairsProcessor (wholePass further)
            again.handings = last.handings ∧ again.place.handler = last.place.handler ∧
              again.place.stats = last.place.stats := by
  have appends : ∀ action ∈ pairsActions, action.Appends := by decide
  have few : (pairsCourse.written.length : Int) < Int64.maxValue.toInt := by decide
  have loads : ∃ loaded, (CheckpointTable.store.load "p" pairsCourse.place.checkpoints).1
      = .ok loaded := ⟨_, rfl⟩
  obtain ⟨count, -, -, -, hstore, -, hread, hwork, hstats, hfurther⟩ := handed_eq_read
    ⟨"p", ⟨"a"⟩, some (.select ["left", "right"]), .beforeHandling⟩ (some .splitting)
    UpcastChain.splitting_reshapes CheckpointTable.store CheckpointTable.atomic (fun _ _ => rfl)
    collecting (fun _ _ => rfl) default default
    [.append ⟨"a"⟩ [⟨⟨"1"⟩, "pair", .null, .empty⟩] none default] .empty rfl [] pairsActions appends few
    rfl loads
  rw [hstore] at hread
  let last := pairsCourse.run pairsProcessor (wholePass count)
  have hrecords : last.handings.map (·.record) = _ := hread
  have hhandler : collecting.work (last.handings.map (·.record)) [] = (_, last.place.handler) := hwork
  rw [hrecords] at hhandler
  refine ⟨appends, few, rfl, by decide, loads, count, ?_, ?_, ?_, hfurther⟩
  · have htypes := congrArg (List.map (·.typeName)) hrecords
    rw [List.map_map] at htypes
    exact htypes.trans (by decide)
  · exact (congrArg Prod.snd hhandler).symm.trans (by decide)
  · have hlength : last.handings.length = 4 := by
      rw [← List.length_map (·.record), hrecords]
      decide
    show last.place.stats = ⟨4, 0⟩
    rw [← hlength]
    exact hstats

end Course

end EventJournal
