import EventJournal.Proofs.Process.Course

/-!
# What the handler was given

The notes of a course say which records were handed over and whether the handler succeeded with them. That
they are true does not follow from how they are taken: a step could note a record and leave the handler as it
was. Here they are compared with the handler itself. Given the noted records one after another, it answers as
noted and is left in the state in which the course left it; and the processor counted what is noted.

* `Handler.work` — what a handler makes of records that it is given one after another.
* `Processor.passStep_hands` — a step of a pass gives the handler the next record, or leaves it alone.
* `Course.Truthful`, `Course.truthful_run` — the notes of every course are true.
* `Course.Truthful.since` — so are those that were added since an earlier moment.
-/

namespace EventJournal

/-- Whether a handler succeeds with each of the records that it is given one after another, and the state that
they leave it in. -/
def Handler.work {η : Type} (handler : Handler η) : List Record → η → List Bool × η
  | [], state => ([], state)
  | record :: rest, state =>
    let (result, next) := handler record state
    let (results, last) := handler.work rest next
    (result.isOk :: results, last)

theorem Handler.work_append {η : Type} (handler : Handler η) (earlier later : List Record) (state : η) :
    handler.work (earlier ++ later) state
      = ((handler.work earlier state).1 ++ (handler.work later (handler.work earlier state).2).1,
        (handler.work later (handler.work earlier state).2).2) := by
  induction earlier generalizing state with
  | nil => rfl
  | cons record rest ih =>
    simp only [List.cons_append, work, ih]

/-- The counts after a record was handed over. -/
def ProcessorStats.count (stats : ProcessorStats) : Bool → ProcessorStats
  | true => { stats with processed := stats.processed + 1 }
  | false => { stats with failed := stats.failed + 1 }

namespace Processor

variable {σ κ η : Type} {processor : Processor σ κ η} {place : Workplace σ κ η}

theorem handle_state (record : Record) (position : Position) :
    (processor.handle record position place).state = { place with
      handler := (processor.handler record place.handler).2,
      stats := place.stats.count (processor.handler record place.handler).1.isOk } := by
  unfold handle
  split <;> rename_i hanswer <;> rw [hanswer] <;> rfl

/-- A step of a pass gives the handler the record that is next, or leaves it and the counts alone. -/
theorem passStep_hands {phase : PassPhase} {view : PassView σ κ η} {samples : MetricLog}
    (h : processor.passStep ⟨phase, place⟩ = some (view, samples)) :
    match phase.upcoming with
    | some (record, position) => view.place = (processor.handle record position place).state
    | none => view.place.handler = place.handler ∧ view.place.stats = place.stats := by
  cases phase with
  | loading | reading =>
    cases h
    exact ⟨rfl, rfl⟩
  | acting checkpoint actions =>
    match actions with
    | [] =>
      cases h
      exact ⟨rfl, rfl⟩
    | .handle record position :: rest =>
      cases h
      rfl
    | .commit position :: rest =>
      cases h
      show (processor.commit checkpoint position place).state.handler = place.handler ∧
        (processor.commit checkpoint position place).state.stats = place.stats
      unfold commit
      dsimp only
      split <;> exact ⟨rfl, rfl⟩
  | ended => cases h

end Processor

namespace Course

variable {κ η : Type} {processor : Processor MemoryStore κ η} {handler : Handler η} {state : η}
  {course : Course κ η}

/-- What is noted is what the handler went through, from the state that it was in at first, and what the
processor counted. -/
structure Truthful (course : Course κ η) (handler : Handler η) (state : η) : Prop where
  handler : handler.work (course.handings.map (·.record)) state
    = (course.handings.map (·.succeeded), course.place.handler)
  stats : course.place.stats
    = ⟨course.handings.countP (·.succeeded), course.handings.countP (!·.succeeded)⟩

theorem truthful_start (before : List MemoryStore.Write) (checkpoints : κ) (handler : Handler η) (state : η) :
    (start before checkpoints state).Truthful handler state := ⟨rfl, rfl⟩

/-- A step that notes nothing leaves the handler alone. -/
theorem Truthful.of_same {course' : Course κ η} (h : course.Truthful handler state)
    (handings : course'.handings = course.handings)
    (same : course'.place.handler = course.place.handler ∧ course'.place.stats = course.place.stats) :
    course'.Truthful handler state where
  handler := by rw [handings, same.1, h.handler]
  stats := by rw [handings, same.2, h.stats]

/-- A record that is handed over is noted with what the handler answers. -/
theorem Truthful.hand {course' : Course κ η} (h : course.Truthful handler state) {record : Record}
    (handings : course'.handings
      = (course.hand record (handler record course.place.handler).1.isOk).handings)
    (reached : course'.place.handler = (handler record course.place.handler).2)
    (counted : course'.place.stats
      = course.place.stats.count (handler record course.place.handler).1.isOk) :
    course'.Truthful handler state where
  handler := by
    rw [handings, reached, Course.hand, List.map_append, List.map_append, Handler.work_append, h.handler]
    rfl
  stats := by
    rw [handings, counted, h.stats, Course.hand, List.countP_append, List.countP_append]
    cases (handler record course.place.handler).1.isOk <;> rfl

theorem Truthful.advance (h : course.Truthful processor.handler state) :
    (course.advance processor).Truthful processor.handler state := by
  unfold Course.advance
  split
  · rename_i view samples hstep
    obtain ⟨phase, hphase, hstep⟩ := Option.bind_eq_some_iff.mp hstep
    have hupcoming : course.upcoming = phase.upcoming := by rw [upcoming, hphase, Option.bind_some]
    have hhands := Processor.passStep_hands hstep
    rw [← hupcoming] at hhands
    cases hnext : course.upcoming with
    | none =>
      rw [hnext] at hhands
      rw [note_of_upcoming_none hnext]
      refine h.of_same (handings_after ..) ?_
      rw [place_after]
      exact hhands
    | some next =>
      obtain ⟨record, position⟩ := next
      rw [hnext] at hhands
      -- the record is noted with what the handler answers, and the handler goes where this answer takes it
      have hplace : view.place = (processor.handle record position course.place).state := hhands
      rw [Processor.handle_state] at hplace
      have hnote : course.note processor
          = course.hand record (processor.handler record course.place.handler).1.isOk := by
        rw [note, hnext]
      rw [hnote]
      exact h.hand (handings_after ..) (by rw [place_after, hplace]) (by rw [place_after, hplace])
  · exact h

/-- Whatever happens, the notes stay true. -/
theorem Truthful.step (h : course.Truthful processor.handler state) (action : Action) :
    (course.step processor action).Truthful processor.handler state := by
  cases action with
  | write call => exact h.of_same rfl ⟨rfl, rfl⟩
  | begin =>
    show course.begin.Truthful processor.handler state
    unfold Course.begin
    split
    · exact h.of_same rfl ⟨rfl, rfl⟩
    · exact h
  | advance => exact h.advance
  | abandon => exact h.of_same rfl ⟨rfl, rfl⟩

theorem Truthful.run (h : course.Truthful processor.handler state) (actions : List Action) :
    (course.run processor actions).Truthful processor.handler state := by
  induction actions generalizing course with
  | nil => exact h
  | cons action rest ih => exact ih (h.step action)

/-- **The notes of every course are true**: whatever was written before, whatever fails and is abandoned, and
whatever others write, the handler went through the records that are noted, in their order, with the answers
that are noted, and the processor counted them. -/
theorem truthful_run (processor : Processor MemoryStore κ η) (before : List MemoryStore.Write)
    (checkpoints : κ) (state : η) (actions : List Action) :
    ((start before checkpoints state).run processor actions).Truthful processor.handler state :=
  (truthful_start before checkpoints processor.handler state).run actions

/-- So are the notes that were added since an earlier moment. -/
theorem Truthful.since {earlier : Course κ η} (before : earlier.Truthful handler state)
    (now : course.Truthful handler state) {done : List Handing}
    (more : course.handings = earlier.handings ++ done) :
    handler.work (done.map (·.record)) earlier.place.handler
      = (done.map (·.succeeded), course.place.handler) := by
  have hwork := now.handler
  rw [more, List.map_append, List.map_append, Handler.work_append, before.handler] at hwork
  obtain ⟨hresults, hlast⟩ := Prod.mk.inj hwork
  exact Prod.ext (List.append_cancel_left hresults) hlast

/-- When nothing was noted in between, the handler and the counts are as they were. -/
theorem Truthful.same {course' : Course κ η} (h : course.Truthful handler state)
    (h' : course'.Truthful handler state) (handings : course'.handings = course.handings) :
    course'.place.handler = course.place.handler ∧ course'.place.stats = course.place.stats := by
  have hwork := h'.handler
  rw [handings, h.handler] at hwork
  exact ⟨(Prod.mk.inj hwork).2.symm, by rw [h'.stats, h.stats, handings]⟩

/-- When the handler succeeded each time, all that was handed over counts as processed. -/
theorem Truthful.stats_of_succeeded (h : course.Truthful handler state)
    (succeeded : ∀ handing ∈ course.handings, handing.succeeded = true) :
    course.place.stats = ⟨course.handings.length, 0⟩ := by
  have hfailed : course.handings.countP (!·.succeeded) = 0 :=
    List.countP_eq_zero.mpr fun handing hmem => by simp [succeeded handing hmem]
  rw [h.stats, List.countP_eq_length.mpr succeeded, hfailed]

end Course

end EventJournal
