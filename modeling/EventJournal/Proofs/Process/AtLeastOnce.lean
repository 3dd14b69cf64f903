import EventJournal.Proofs.Process.Ahead
import EventJournal.Proofs.Process.Handings

/-!
# Nothing is left out

A processor that commits after handling may hand a record over again, but it leaves none out: what its
checkpoint covers was handled, whatever failed or was abandoned on the way and whatever others wrote.

The reason is the shape of the plan, `Retrying`: in front of each commit stand the handlings of one
whole group, and a pass only gets past them if they succeed. Between two groups there is nothing that
can still be read (`Ahead`), so a commit covers one source more.

* `Retrying.hand` and `Retrying.commit` — a step within a group, and the one that ends it.
* `Served.move` and `Served.write` — every move and every write keeps what holds.
* `handled_at_least_once` — the main statement.
-/

namespace EventJournal

open MemoryStore PassAction

/-- All that a source shows was handled successfully. -/
def Record.ServedBy (source : Record) (outputs : Record → List Record) (handings : List Handing) :
    Prop :=
  ∀ index output, (outputs source)[index]? = some output → ⟨output, index, true⟩ ∈ handings

theorem Record.ServedBy.mono {source : Record} {outputs : Record → List Record}
    {handings handings' : List Handing} (served : source.ServedBy outputs handings)
    (subset : handings ⊆ handings') : source.ServedBy outputs handings' :=
  fun index output h => subset (served index output h)

/-! ## The plan of a pass -/

/-- What a pass at a position still has to do: nothing, or the rest of a group, its commit, and the
groups of the later sources. -/
inductive Retrying (store : MemoryStore) (stream : StreamId) (outputs : Record → List Record)
    (written given : List Record) (handings : List Handing) (position : Position)
    (actions : List PassAction) : Prop where
  | finished (plan : actions = [])
  | within (source : Record) (done todo later : List Record)
      (ahead : Ahead store stream outputs written position (source :: later))
      (group : Group outputs given source done todo later)
      (served : ∀ index output, done[index]? = some output → ⟨output, index, true⟩ ∈ handings)
      (plan : actions = todo.map (handle · (source.positionIn stream))
        ++ commit (source.positionIn stream) :: groups .afterHandling stream outputs later)

namespace Retrying

variable {store : MemoryStore} {stream : StreamId} {outputs : Record → List Record}
  {written given : List Record} {handings : List Handing} {position : Position}

/-- The groups of some sources, nothing of which is handed over yet. -/
theorem of_ahead {sources : List Record}
    (ahead : Ahead store stream outputs written position sources)
    (placed : ∀ source ∈ sources, ∀ output ∈ outputs source, output.sequence = source.sequence)
    (before : ∀ record ∈ given, ∀ source ∈ sources, record.sequence < source.sequence) :
    Retrying store stream outputs written given handings position
      (groups .afterHandling stream outputs sources) := by
  cases sources with
  | nil => exact .finished rfl
  | cons source later =>
    have hordered := (List.pairwise_cons.mp ahead.ordered).1
    have hgroup : Group outputs given source [] (outputs source) later :=
      .opening (placed source List.mem_cons_self) before fun other hother => (hordered other hother).2
    refine .within source [] (outputs source) later ahead hgroup nofun ?_
    rw [groups, List.flatMap_cons, group, List.append_assoc]
    rfl

/-- Others may write while a pass works through its plan. -/
theorem after {actions : List PassAction}
    (retrying : Retrying store stream outputs written given handings position actions)
    (sound : store.Sound) {write : Write} (spares : write.Spares stream)
    (room : store.nextSequence.toInt + (write.appended store).length ≤ Int64.maxValue.toInt) :
    Retrying (write.after store) stream outputs (written ++ write.appended store) given handings
      position actions := by
  cases retrying with
  | finished plan => exact .finished plan
  | within source done todo later ahead group served plan =>
    exact .within source done todo later (ahead.after sound spares room) group served plan

/-- A record of a group is handled. -/
theorem hand {record : Record} {place : Position} {rest : List PassAction}
    (retrying : Retrying store stream outputs written given handings position
      (.handle record place :: rest)) :
    Retrying store stream outputs written (given ++ [record])
      (handings ++ [⟨record, record.indexAfter given, true⟩]) position rest := by
  cases retrying with
  | finished plan => cases plan
  | within source done todo later ahead group served plan =>
    cases todo with
    | nil => cases plan
    | cons next todo =>
      cases plan
      obtain ⟨hindex, -⟩ := group.output
      refine .within source (done ++ [record]) todo later ahead group.hand ?_ rfl
      intro index output houtput
      rcases getElem?_concat houtput with hearlier | ⟨rfl, rfl⟩
      · exact List.mem_append_left _ (served index output hearlier)
      · rw [← hindex]
        exact List.mem_append_right _ List.mem_cons_self

/-- The position of a group is committed: all that its source shows was handled, no other source that
can be read lies up to it, and the rest goes on from there. -/
theorem commit {place : Position} {rest : List PassAction}
    (retrying : Retrying store stream outputs written given handings position (.commit place :: rest))
    (placed : ∀ source output, output ∈ outputs source → output.sequence = source.sequence) :
    ∃ source, place = source.positionIn stream ∧ (source ∈ written ∧ stream.concerns source = true) ∧
      outputs source ≠ [] ∧ source.ServedBy outputs handings ∧
      place.toInt ≤ store.horizon stream ∧
      (∀ other ∈ store.readable stream, outputs other ≠ [] → position < other.positionIn stream →
        other.positionIn stream ≤ place → other = source) ∧
      Retrying store stream outputs written given handings place rest := by
  cases retrying with
  | finished plan => cases plan
  | within source done todo later ahead group served plan =>
    cases todo with
    | cons next todo => cases plan
    | nil =>
      cases plan
      have hmem : source ∈ source :: later := List.mem_cons_self
      have hdone : outputs source = done := by rw [group.parts, List.append_nil]
      refine ⟨source, rfl, ahead.known source hmem, ahead.shown source hmem, ?_,
        (ahead.settled source hmem).reached, fun other => ahead.eq_head, ?_⟩
      · intro index output houtput
        rw [hdone] at houtput
        exact served index output houtput
      · exact .of_ahead ahead.rest (fun other _ => placed other) group.before

end Retrying

/-! ## What holds at every moment -/

namespace Course

variable {κ η : Type} {processor : Processor MemoryStore κ η}
  {saved : String → κ → Option Checkpoint} {outputs : Record → List Record} {course : Course κ η}

/-- What holds in a phase of a pass. -/
def RetryingPhase (config : ProcessorConfig) (saved : String → κ → Option Checkpoint)
    (outputs : Record → List Record) (course : Course κ η) : PassPhase → Prop
  | .loading => course.given = []
  | .reading checkpoint => course.given = [] ∧ checkpoint = course.persisted config saved
  | .acting checkpoint actions =>
    checkpoint = course.persisted config saved ∧
      Retrying course.place.store config.stream outputs course.written course.given course.handings
        checkpoint.position actions
  | .ended _ => False

/-- What holds at every moment of a course that commits after handling. -/
structure Served (config : ProcessorConfig) (saved : String → κ → Option Checkpoint)
    (outputs : Record → List Record) (course : Course κ η) : Prop
    extends Grounded config saved course where
  /-- All that can be read up to the checkpoint was handled. -/
  covered : ∀ source ∈ course.place.store.readable config.stream,
    source.positionIn config.stream ≤ (course.persisted config saved).position →
      source.ServedBy outputs course.handings
  /-- The checkpoint, if there is one, is at the position of a group that was handled. -/
  checkpoint : saved config.name course.place.checkpoints = none ∨
    ∃ source, (source ∈ course.written ∧ config.stream.concerns source = true) ∧
      outputs source ≠ [] ∧ source.ServedBy outputs course.handings ∧
      (course.persisted config saved).position = source.positionIn config.stream
  phase : ∀ phase, course.pass = some phase → RetryingPhase config saved outputs course phase

/-- What is kept about the checkpoint stays when nothing changes but the pass and what was handed
over. -/
theorem Served.of_kept {config : ProcessorConfig} {course' : Course κ η}
    (served : Served config saved outputs course)
    (store : course'.place.store = course.place.store) (written : course'.written = course.written)
    (kept : saved config.name course'.place.checkpoints = saved config.name course.place.checkpoints)
    (handings : course.handings ⊆ course'.handings)
    (phase : ∀ phase, course'.pass = some phase → RetryingPhase config saved outputs course' phase) :
    Served config saved outputs course' where
  toGrounded := served.toGrounded.of_kept store written kept
  covered := by
    rw [store, persisted, persisted_congr config kept]
    exact fun source hsource hle => (served.covered source hsource hle).mono handings
  checkpoint := by
    rw [kept, written, persisted, persisted_congr config kept]
    refine served.checkpoint.imp_right ?_
    rintro ⟨source, hknown, hshown, hserved, hposition⟩
    exact ⟨source, hknown, hshown, hserved.mono handings, hposition⟩
  phase := phase

theorem served_start (config : ProcessorConfig) (outputs : Record → List Record)
    (before : List Write) {checkpoints : κ} (handler : η)
    (absent : saved config.name checkpoints = none)
    (few : ((start before checkpoints handler).written.length : Int) < Int64.maxValue.toInt) :
    Served config saved outputs (start before checkpoints handler) where
  toGrounded := grounded_start config before handler absent few
  covered _ hsource hle :=
    ((grounded_start config before handler absent few).not_covered absent hsource hle).elim
  checkpoint := .inl absent
  phase := nofun

/-- A write that spares the stream. -/
theorem Served.write {config : ProcessorConfig} (served : Served config saved outputs course)
    {call : Write} (spares : call.Spares config.stream)
    (few : ((course.write call).written.length : Int) < Int64.maxValue.toInt) :
    Served config saved outputs (course.write call) := by
  obtain ⟨room, hgrounded⟩ := served.toGrounded.write spares few
  constructor
  case toGrounded => exact hgrounded
  case covered =>
    intro source hsource hle
    have hold := served.sound.mem_readable_of_le spares room served.reached hsource hle
    exact served.covered source hold hle
  case checkpoint =>
    refine served.checkpoint.imp_right ?_
    rintro ⟨source, ⟨hwritten, hconcerns⟩, hrest⟩
    exact ⟨source, ⟨List.mem_append_left _ hwritten, hconcerns⟩, hrest⟩
  case phase =>
    intro phase hphase
    have hold := served.phase phase hphase
    cases phase with
    | loading => exact hold
    | reading checkpoint => exact hold
    | acting checkpoint actions => exact ⟨hold.1, hold.2.after served.sound spares room⟩
    | ended outcome => exact hold

/-- A position is committed. -/
theorem Served.committed (keeps : processor.checkpoints.Keeps saved) (hshows : processor.Shows outputs)
    (served : Served processor.config saved outputs course) {checkpoint : Checkpoint}
    {position : Position} {rest : List PassAction} {checkpoints : κ}
    (phase : course.pass = some (.acting checkpoint (.commit position :: rest)))
    (save : processor.checkpoints.save { checkpoint with position } course.place.checkpoints
      = (.ok (), checkpoints)) :
    Served processor.config saved outputs
      { course with
        pass := some (.acting { checkpoint with position } rest),
        place.checkpoints := checkpoints } := by
  obtain ⟨rfl, retrying⟩ := served.phase _ phase
  obtain ⟨source, hposition, hknown, hshown, hserved, hreached, honly, hrest⟩ :=
    retrying.commit fun source output h => (hshows.placed h).1
  have hpersisted : processor.config.persisted saved checkpoints
      = { course.persisted processor.config saved with position } :=
    keeps.persisted_of_saved processor.config save
  constructor
  case toGrounded =>
    refine served.toGrounded.of_reached rfl rfl ?_
    rw [persisted, hpersisted]
    exact hreached
  case covered =>
    intro other hother hle
    change _ ≤ (processor.config.persisted saved checkpoints).position at hle
    rw [hpersisted] at hle
    by_cases hold : other.positionIn processor.config.stream
        ≤ (course.persisted processor.config saved).position
    · exact served.covered other hother hold
    · by_cases hempty : outputs other = []
      · intro index output houtput
        rw [hempty] at houtput
        cases houtput
      · -- beyond the old checkpoint there is only the source whose group was handled
        have hbeyond : (course.persisted processor.config saved).position
            < other.positionIn processor.config.stream := Std.not_le.mp hold
        rw [honly other hother hempty hbeyond hle]
        exact hserved
  case checkpoint =>
    refine .inr ⟨source, hknown, hshown, hserved, ?_⟩
    show (processor.config.persisted saved checkpoints).position = _
    rw [hpersisted]
    exact hposition
  case phase =>
    intro phase hphase
    cases hphase
    exact ⟨hpersisted.symm, hrest⟩

/-- Every move of the pass keeps what holds. -/
theorem Served.move (strategy : processor.config.strategy = .afterHandling)
    (hshows : processor.Shows outputs) (keeps : processor.checkpoints.Keeps saved)
    {course' : Course κ η} (served : Served processor.config saved outputs course)
    (move : Move processor saved course course') :
    Served processor.config saved outputs course' := by
  cases move with
  | idle => exact served
  | begun fresh =>
    refine served.of_kept rfl rfl rfl (List.Subset.refl _) fun phase hphase => ?_
    cases hphase
    rfl
  | loaded phase loaded =>
    have hkept := kept_of_loaded keeps loaded
    have hgiven := served.phase _ phase
    obtain ⟨-, hpersisted⟩ := Processor.checkpoint_eq_persisted keeps loaded
    refine served.of_kept rfl rfl hkept (List.Subset.refl _) fun phase hphase => ?_
    cases hphase
    exact ⟨hgiven, hpersisted⟩
  | @planned checkpoint records phase read =>
    obtain ⟨hgiven, hpersisted⟩ := served.phase _ phase
    refine served.of_kept rfl rfl rfl (List.Subset.refl _) fun phase hphase => ?_
    cases hphase
    refine ⟨hpersisted, ?_⟩
    obtain ⟨sources, ahead, -, hplan⟩ :=
      hshows.plan served.sound served.known processor.config.strategy read
    rw [hplan, strategy]
    refine .of_ahead ahead (fun source _ output h => (hshows.placed h).1) ?_
    -- the pass has not handed anything over
    show ∀ record ∈ course.given, _
    rw [hgiven]
    exact nofun
  | handled phase answer =>
    obtain ⟨hpersisted, retrying⟩ := served.phase _ phase
    refine served.of_kept rfl rfl rfl (List.subset_append_left _ _) fun phase hphase => ?_
    cases hphase
    exact ⟨hpersisted, retrying.hand⟩
  | failed phase answer =>
    exact served.of_kept rfl rfl rfl (List.subset_append_left _ _) nofun
  | committed phase save => exact served.committed keeps hshows phase save
  | stopped kept => exact served.of_kept rfl rfl kept (List.Subset.refl _) nofun

/-- **Nothing is left out**: whatever fails or is abandoned, and whatever others append and truncate,
each record that a read gives up to the checkpoint was handled, and the checkpoint, if there is one, is
at the position of a group all of which was handled. What is noted as handled is what the handler went
through. -/
theorem handled_at_least_once (config : ProcessorConfig)
    (strategy : config.strategy = .afterHandling) (chain : Option UpcastChain)
    (keeps : (chain.getD .identity).KeepsPlace) (store : CheckpointStore κ)
    (atomic : store.Atomic saved) (handler : Handler η) (now : Timestamp) (fresh : EventId)
    (before : List Write) (checkpoints : κ) (absent : saved config.name checkpoints = none) (state : η)
    (actions : List Action) (spares : ∀ action ∈ actions, action.Spares config.stream)
    (few : (((start before checkpoints state).run (.reading config chain store handler now fresh)
      actions).written.length : Int) < Int64.maxValue.toInt) :
    let processor := Processor.reading config chain store handler now fresh
    let course := (start before checkpoints state).run processor actions
    let position := (course.persisted config saved).position
    course.Truthful handler state ∧
      (∀ first slice, (processor.store.read config.stream
          { ReadOptions.forward with position := first, filter := config.filter }
          course.place.store).outcome = .ok slice →
        ∀ index record, slice.records[index]? = some record →
          record.positionIn config.stream ≤ position →
            ⟨record, record.indexAfter (slice.records.take index), true⟩ ∈ course.handings) ∧
      (saved config.name course.place.checkpoints = none ∨
        ∃ source ∈ course.written, config.stream.concerns source = true ∧
          let group := (chain.getD .identity).shown config.filter source
          group ≠ [] ∧ ∀ index output, group[index]? = some output →
            output.positionIn config.stream = position ∧
              ⟨output, index, true⟩ ∈ course.handings) := by
  intro processor course position
  have hshows := Processor.reading_shows config keeps store handler now fresh
  have hbefore := @length_written_le _ _ processor saved (start before checkpoints state)
    hshows.readsOnly atomic actions
  have hstart := served_start config ((chain.getD .identity).shown config.filter) before state absent
    (Int.lt_of_le_of_lt (Int.ofNat_le.mpr hbefore) few)
  have served : Served config saved ((chain.getD .identity).shown config.filter) course :=
    holds_run hshows.readsOnly atomic (fun served => served.move strategy hshows atomic.toKeeps)
      (fun served => served.write) hstart actions spares few
  refine ⟨truthful_run processor before checkpoints state actions, ?_, ?_⟩
  · intro first slice hread index record hrecord hle
    obtain ⟨source, hsource, hposition, houtput⟩ := served.sound.output_of_read keeps hread hrecord
    rw [← hposition] at hle
    exact served.covered source hsource hle _ record houtput
  · refine served.checkpoint.imp_right ?_
    rintro ⟨source, ⟨hwritten, hconcerns⟩, hshown, hserved, hposition⟩
    refine ⟨source, hwritten, hconcerns, hshown, fun index output houtput => ⟨?_, ?_⟩⟩
    · exact (hshows.placed (List.mem_of_getElem? houtput)).2.trans hposition.symm
    · exact hserved index output houtput

/-- A processor that commits after handling. -/
def retryingConfig : ProcessorConfig := ⟨"p", ⟨"a"⟩, none, .afterHandling⟩

/-- Notes the types that it handles; it does not handle the first right part that it sees. -/
def noting : Handler (List String) := fun record seen =>
  if record.typeName = "right" ∧ seen.length < 2 then (.error ["not yet"], seen)
  else (.ok (), seen ++ [record.typeName])

/-- The first pass fails at the right part, the second one at its commit, and the third one is
abandoned within the second pair. -/
def retryingActions : List Action :=
  [.begin, .advance, .advance, .advance, .advance,
    .begin, .advance, .advance, .advance, .write (.append ⟨"a"⟩
      [⟨⟨"2"⟩, "pair", .null, .empty⟩] none default), .advance, .advance,
    .begin, .advance, .advance, .advance, .advance, .advance, .advance, .abandon]

def retryingBefore : List Write := [.append ⟨"a"⟩ [⟨⟨"1"⟩, "pair", .null, .empty⟩] none default]

def retryingCheckpoints : Faulty CheckpointOperation CheckpointTable :=
  ⟨[⟨.save, .checkpoint "p" (.streamNotFound ⟨"a"⟩), 1⟩], .empty⟩

def retryingCourse : Course (Faulty CheckpointOperation CheckpointTable) (List String) :=
  (start retryingBefore retryingCheckpoints []).run
    (.reading retryingConfig (some UpcastChain.splitting) CheckpointTable.store.unreliable noting
      default default) retryingActions

theorem handled_at_least_once_sample :
    (∀ action ∈ retryingActions, action.Spares ⟨"a"⟩) ∧
      (retryingCourse.written.length : Int) < Int64.maxValue.toInt ∧
      (retryingCourse.handings.map fun handing =>
          (handing.record.typeName, handing.index, handing.succeeded))
        = [("left", 0, true), ("right", 1, false), ("left", 0, true), ("right", 1, true),
            ("left", 0, true), ("right", 1, true), ("left", 0, true)] ∧
      retryingCourse.place.handler = ["left", "left", "right", "left", "right", "left"] ∧
      retryingCourse.place.stats = ⟨6, 1⟩ ∧ retryingCourse.Truthful noting [] ∧
      retryingCourse.place.checkpoints.inner = ⟨[⟨"p", ⟨"a"⟩, ⟨0⟩⟩]⟩ ∧
      ∃ slice, ((reader (some UpcastChain.splitting) default default).read ⟨"a"⟩ .forward
          retryingCourse.place.store).outcome = .ok slice ∧
        slice.records.map Record.typeName = ["left", "right", "left", "right"] ∧
        ∃ record, slice.records[1]? = some record ∧ ⟨record, 1, true⟩ ∈ retryingCourse.handings :=
  have spares : ∀ action ∈ retryingActions, action.Spares ⟨"a"⟩ := by decide
  have few : (retryingCourse.written.length : Int) < Int64.maxValue.toInt := by decide
  have read : ((reader (some UpcastChain.splitting) default default).read ⟨"a"⟩ .forward
      retryingCourse.place.store).outcome = .ok _ := rfl
  have atomic := CheckpointTable.atomic.unreliable
  have holds := handled_at_least_once retryingConfig rfl (some UpcastChain.splitting)
    UpcastChain.splitting_keepsPlace _ atomic noting default default retryingBefore
    retryingCheckpoints rfl [] retryingActions spares few
  ⟨spares, few, by decide, by decide, by decide, holds.1, by decide, _, read, by decide, _, rfl,
    holds.2.1 .start _ read 1 _ rfl (by decide)⟩

end Course

end EventJournal
