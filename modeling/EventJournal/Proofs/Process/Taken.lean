import EventJournal.Proofs.Process.Ahead

/-!
# What a processor takes

A pass plans at its read what it will hand over, and from then on does what it planned. The records that
a processor has `taken` are those that were handled and those that the pass under way still has to hand
over. When neither its handler nor a save fails, only a read adds to them.

* `Course.Takes` — a step that takes some records; the last position that the pass will commit moves on to
  the last of them.
* `Course.takes_read` — a read takes what it gives. `Course.takes_advance`: every other step of a pass takes
  nothing.
-/

namespace EventJournal

open MemoryStore PassAction

namespace Course

variable {κ η : Type}

/-- The records that were handled. -/
def handled (course : Course κ η) : List Record :=
  (course.handings.filter (·.succeeded)).map (·.record)

/-- What the pass under way still has to do. -/
def remaining (course : Course κ η) : List PassAction :=
  match course.pass with
  | some (.acting _ actions) => actions
  | _ => []

/-- The checkpoint that the pass under way works with. -/
def inHand (course : Course κ η) : Option Checkpoint :=
  match course.pass with
  | some (.reading checkpoint) | some (.acting checkpoint _) => some checkpoint
  | _ => none

/-- The records that were handled and those that the pass under way will hand over. -/
def taken (course : Course κ η) : List Record :=
  course.handled ++ course.remaining.filterMap record?

variable {processor : Processor MemoryStore κ η} {config : ProcessorConfig}
  {saved : String → κ → Option Checkpoint} {course course' : Course κ η} {checkpoint : Checkpoint}
  {rest : List PassAction}

/-- A pass with something left to do acts. -/
theorem acting_of_remaining {action : PassAction} (h : course.remaining = action :: rest) :
    ∃ checkpoint, course.pass = some (.acting checkpoint (action :: rest)) := by
  unfold remaining at h
  split at h
  · rename_i hpass
    rw [h] at hpass
    exact ⟨_, hpass⟩
  · cases h

theorem mem_inHand_of_reading (phase : course.pass = some (.reading checkpoint)) :
    checkpoint ∈ course.inHand := by
  rw [inHand, phase]
  rfl

theorem mem_inHand_of_acting {actions : List PassAction}
    (phase : course.pass = some (.acting checkpoint actions)) : checkpoint ∈ course.inHand := by
  rw [inHand, phase]
  rfl

theorem handled_hand (course : Course κ η) (record : Record) :
    (course.hand record true).handled = course.handled ++ [record] := by
  show (List.filter _ (_ ++ [_])).map _ = _
  rw [List.filter_append, List.map_append]
  rfl

/-- When nothing is left to do, what was taken was handled. -/
theorem taken_of_remaining_nil (nothing : course.remaining = []) : course.taken = course.handled := by
  rw [taken, nothing]
  exact List.append_nil _

/-! ## Steps that cannot fail -/

/-- A read that succeeds is followed by a plan. -/
theorem advance_reading (readsOnly : processor.ReadsOnly) {records : List Record}
    (phase : course.pass = some (.reading checkpoint))
    (read : (processor.readAfter checkpoint.position course.place.store).outcome = .ok records) :
    course.advance processor = { course with
      pass := some (.acting checkpoint
        (plan processor.config.strategy processor.config.stream records)) } := by
  have hstate := readsOnly checkpoint.position course.place.store
  have hquiet : course.upcoming = none := by
    rw [upcoming, phase]
    rfl
  simp only [advance, phase, Option.bind_some, Processor.passStep, Processor.passAfter,
    Processor.prepare, read, hstate, note_of_upcoming_none hquiet]
  rfl

/-- A record that a pass hands over is handled, and counted. -/
theorem advance_handling (handles : ∀ record handler, (processor.handler record handler).1 = .ok ())
    {record : Record} {position : Position}
    (phase : course.pass = some (.acting checkpoint (.handle record position :: rest))) :
    course.advance processor = { course.hand record true with
      pass := some (.acting checkpoint rest),
      place.handler := (processor.handler record course.place.handler).2,
      place.stats.processed := course.place.stats.processed + 1 } := by
  have hupcoming : course.upcoming = some (record, position) := by
    rw [upcoming, phase]
    rfl
  have hhandles := handles record course.place.handler
  cases hresult : processor.handler record course.place.handler with
  | mk result handler =>
    rw [hresult] at hhandles
    cases hhandles
    simp only [advance, phase, Option.bind_some, Processor.passStep, Processor.passAfter,
      Processor.act, Processor.handle, hresult, note, hupcoming]
    rfl

/-- A position that a pass commits is saved. -/
theorem advance_committing
    (saves : ∀ checkpoint checkpoints, (processor.checkpoints.save checkpoint checkpoints).1 = .ok ())
    {position : Position}
    (phase : course.pass = some (.acting checkpoint (.commit position :: rest))) :
    ∃ checkpoints, processor.checkpoints.save { checkpoint with position } course.place.checkpoints
        = (.ok (), checkpoints) ∧
      course.advance processor = { course with
        pass := some (.acting { checkpoint with position } rest),
        place.checkpoints := checkpoints } := by
  have hquiet : course.upcoming = none := by
    rw [upcoming, phase]
    rfl
  have hsaves := saves { checkpoint with position } course.place.checkpoints
  cases hresult : processor.checkpoints.save { checkpoint with position }
      course.place.checkpoints with
  | mk result checkpoints =>
    rw [hresult] at hsaves
    cases hsaves
    refine ⟨checkpoints, rfl, ?_⟩
    simp only [advance, phase, Option.bind_some, Processor.passStep, Processor.passAfter,
      Processor.act, Processor.commit, hresult, note_of_upcoming_none hquiet]
    rfl

/-! ## What a step takes -/

/-- A step of a pass that takes some records, none unless it is a read. After it the checkpoint in hand is
the one that is kept, and the last position that the pass will commit is that of the last record taken. -/
structure Takes (config : ProcessorConfig) (saved : String → κ → Option Checkpoint)
    (course course' : Course κ η) (records : List Record) : Prop where
  store : course'.place.store = course.place.store
  written : course'.written = course.written
  taken : course'.taken = course.taken ++ records
  aim : goal (course'.persisted config saved).position course'.remaining
    = cursorAfter config.stream (goal (course.persisted config saved).position course.remaining) records
  stream : (course'.persisted config saved).stream = (course.persisted config saved).stream
  inHand : ∀ checkpoint ∈ course'.inHand, checkpoint = course'.persisted config saved
  handings : ∃ more, course'.handings = course.handings ++ more ∧
    ∀ handing ∈ more, handing.succeeded = true

/-- A step that keeps the checkpoint and hands nothing over takes nothing. -/
theorem Takes.of_kept (store : course'.place.store = course.place.store)
    (written : course'.written = course.written) (handings : course'.handings = course.handings)
    (kept : course'.persisted config saved = course.persisted config saved)
    (remaining : course'.remaining = course.remaining)
    (inHand : ∀ checkpoint ∈ course'.inHand, checkpoint = course'.persisted config saved) :
    Takes config saved course course' [] where
  store := store
  written := written
  taken := by simp only [Course.taken, Course.handled, handings, remaining, List.append_nil]
  aim := by
    rw [kept, remaining]
    rfl
  stream := congrArg Checkpoint.stream kept
  inHand := inHand
  handings := ⟨[], by rw [handings, List.append_nil], nofun⟩

/-- The last position that a pass will commit is that of the last record taken. -/
theorem Takes.aim_eq {records : List Record} (takes : Takes config saved course course' records)
    (aim : goal (course.persisted config saved).position course.remaining
      = cursorAfter config.stream .start course.taken) :
    goal (course'.persisted config saved).position course'.remaining
      = cursorAfter config.stream .start course'.taken := by
  rw [takes.aim, aim, takes.taken, cursorAfter_append]

/-- So a pass reads from the position of the last record taken. -/
theorem position_of_reading
    (hand : ∀ checkpoint ∈ course.inHand, checkpoint = course.persisted config saved)
    (aim : goal (course.persisted config saved).position course.remaining
      = cursorAfter config.stream .start course.taken)
    (phase : course.pass = some (.reading checkpoint)) :
    checkpoint.position = cursorAfter config.stream .start course.taken := by
  have hhand : checkpoint = course.persisted config saved := hand checkpoint (mem_inHand_of_reading phase)
  rw [remaining, phase] at aim
  rw [hhand]
  exact aim

/-- A move between two passes, or before the read of one. -/
theorem takes_quiet (keeps : processor.checkpoints.Keeps saved)
    (hand : ∀ checkpoint ∈ course.inHand, checkpoint = course.persisted processor.config saved)
    (move : Move processor saved course course') (nothing : course.remaining = [])
    (unread : ∀ checkpoint, course.pass ≠ some (.reading checkpoint)) :
    Takes processor.config saved course course' [] := by
  cases move with
  | idle => exact .of_kept rfl rfl rfl rfl rfl hand
  | begun fresh => exact .of_kept rfl rfl rfl rfl nothing.symm nofun
  | @loaded checkpoint checkpoints phase loaded =>
    obtain ⟨hbefore, hafter⟩ := Processor.checkpoint_eq_persisted keeps loaded
    refine .of_kept rfl rfl rfl (hafter.symm.trans hbefore) nothing.symm fun other hother => ?_
    cases hother
    exact hafter
  | planned phase read => exact absurd phase (unread _)
  | handled phase answer =>
    rw [remaining, phase] at nothing
    cases nothing
  | failed phase answer =>
    rw [remaining, phase] at nothing
    cases nothing
  | committed phase save =>
    rw [remaining, phase] at nothing
    cases nothing
  | stopped kept =>
    exact .of_kept rfl rfl rfl (persisted_congr processor.config kept) nothing.symm nofun

/-- A step of the plan: a record is handled or a position committed. -/
theorem takes_act (handles : ∀ record handler, (processor.handler record handler).1 = .ok ())
    (saves : ∀ checkpoint checkpoints, (processor.checkpoints.save checkpoint checkpoints).1 = .ok ())
    (keeps : processor.checkpoints.Keeps saved)
    (hand : ∀ checkpoint ∈ course.inHand, checkpoint = course.persisted processor.config saved)
    {action : PassAction} (acting : course.remaining = action :: rest) :
    Takes processor.config saved course (course.advance processor) [] := by
  obtain ⟨checkpoint, hpass⟩ := acting_of_remaining acting
  have hhand : checkpoint = course.persisted processor.config saved :=
    hand checkpoint (mem_inHand_of_acting hpass)
  cases action with
  | handle record position =>
    rw [advance_handling handles hpass]
    refine ⟨rfl, rfl, ?_, ?_, rfl, ?_, [_], rfl, ?_⟩
    · show (course.hand record true).handled ++ rest.filterMap record? = course.taken ++ []
      rw [handled_hand, List.append_nil, taken, acting, List.append_assoc]
      rfl
    · rw [acting]
      rfl
    · intro other hother
      cases hother
      exact hhand
    · intro handing hhanding
      rw [List.mem_singleton.mp hhanding]
  | commit position =>
    obtain ⟨checkpoints, hsave, hadvance⟩ := advance_committing saves hpass
    have hpersisted : processor.config.persisted saved checkpoints = { checkpoint with position } := by
      rw [hhand] at hsave ⊢
      exact keeps.persisted_of_saved processor.config hsave
    rw [hadvance]
    refine ⟨rfl, rfl, ?_, ?_, ?_, ?_, [], (List.append_nil _).symm, nofun⟩
    · show course.handled ++ rest.filterMap record? = course.taken ++ []
      rw [List.append_nil, taken, acting]
      rfl
    · rw [acting]
      show goal (processor.config.persisted saved checkpoints).position rest = goal position rest
      rw [hpersisted]
    · show (processor.config.persisted saved checkpoints).stream = _
      rw [hpersisted, hhand]
    · intro other hother
      cases hother
      exact hpersisted.symm

/-- The read of a pass takes what it gives. -/
theorem takes_read (readsOnly : processor.ReadsOnly)
    (hand : ∀ checkpoint ∈ course.inHand, checkpoint = course.persisted processor.config saved)
    (phase : course.pass = some (.reading checkpoint)) {records : List Record}
    (read : (processor.readAfter checkpoint.position course.place.store).outcome = .ok records) :
    Takes processor.config saved course (course.advance processor) records := by
  have hhand : checkpoint = course.persisted processor.config saved :=
    hand checkpoint (mem_inHand_of_reading phase)
  have hnothing : course.remaining = [] := by rw [remaining, phase]
  rw [advance_reading readsOnly phase read]
  refine ⟨rfl, rfl, ?_, ?_, rfl, ?_, [], (List.append_nil _).symm, nofun⟩
  · show course.handled ++ (plan _ _ records).filterMap record? = _
    rw [plan_handled, taken_of_remaining_nil hnothing]
  · rw [hnothing]
    exact goal_plan _ _ _ _
  · intro other hother
    cases hother
    exact hhand

theorem takes_begin (keeps : processor.checkpoints.Keeps saved)
    (hand : ∀ checkpoint ∈ course.inHand, checkpoint = course.persisted processor.config saved) :
    Takes processor.config saved course course.begin [] := by
  cases hpass : course.pass with
  | none => exact takes_quiet keeps hand begin_cases (by rw [remaining, hpass]) (by simp [hpass])
  | some phase =>
    have hsame : course.begin = course := by rw [Course.begin, hpass]
    rw [hsame]
    exact .of_kept rfl rfl rfl rfl rfl hand

/-- Every step of a pass but its read takes nothing new. -/
theorem takes_advance (readsOnly : processor.ReadsOnly)
    (handles : ∀ record handler, (processor.handler record handler).1 = .ok ())
    (saves : ∀ checkpoint checkpoints, (processor.checkpoints.save checkpoint checkpoints).1 = .ok ())
    (atomic : processor.checkpoints.Atomic saved)
    (hand : ∀ checkpoint ∈ course.inHand, checkpoint = course.persisted processor.config saved)
    (unread : ∀ checkpoint, course.pass ≠ some (.reading checkpoint)) :
    Takes processor.config saved course (course.advance processor) [] := by
  cases hremaining : course.remaining with
  | nil => exact takes_quiet atomic.toKeeps hand (advance_cases readsOnly atomic) hremaining unread
  | cons action rest => exact takes_act handles saves atomic.toKeeps hand hremaining

end Course

end EventJournal
