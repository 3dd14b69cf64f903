import EventJournal.Proofs.Process.Ahead
import EventJournal.Proofs.Process.Handings

/-!
# Nothing is handled twice

A processor that commits before handling hands each record over at most once. What it leaves out are
records of groups in which a pass failed or was abandoned, and nothing else.

A record is told by its sequence number and its index among the outputs of its source. All that was
handed over comes before the sources beyond the checkpoint (`Apart`), so a new pass cannot meet it
again; within a group the indices grow (`Midway`).

* `Midway.hand` and `Spending.commit` — a step within a group, and the one that begins it.
* `Spent.move` and `Spent.write` — every move and every write keeps what holds.
* `handled_at_most_once` — the main statement.
-/

namespace EventJournal

open MemoryStore PassAction

/-- What tells the records that are handed over apart. -/
def Handing.key (handing : Handing) : SequenceNumber × Nat := (handing.record.sequence, handing.index)

/-- An output of a source was handed over. -/
def Handed (handings : List Handing) (output : Record) (index : Nat) : Prop :=
  ∃ handing ∈ handings, handing.record = output ∧ handing.index = index

theorem Handed.append {handings : List Handing} {output : Record} {index : Nat}
    (handed : Handed handings output index) (more : List Handing) :
    Handed (handings ++ more) output index := by
  obtain ⟨handing, hmem, hrecord⟩ := handed
  exact ⟨handing, List.mem_append_left _ hmem, hrecord⟩

/-! ## What was handed over -/

/-- What was handed over is told apart by its keys, and comes before all sources beyond a position. -/
structure Apart (store : MemoryStore) (stream : StreamId) (outputs : Record → List Record)
    (written : List Record) (handings : List Handing) (position : Position) : Prop where
  /-- Each key tells an output of a source that was written. -/
  known : ∀ handing ∈ handings, ∃ source ∈ written, stream.concerns source = true ∧
    (outputs source)[handing.index]? = some handing.record
  distinct : (handings.map Handing.key).Nodup
  numbered : ∀ handing ∈ handings, handing.record.sequence < store.nextSequence
  passed : ∀ handing ∈ handings, ∀ source ∈ store.readable stream,
    position < source.positionIn stream → handing.record.sequence < source.sequence

namespace Apart

variable {store : MemoryStore} {stream : StreamId} {outputs : Record → List Record}
  {written : List Record} {handings : List Handing} {position : Position}

theorem nil : Apart store stream outputs written [] position := ⟨nofun, .nil, nofun, nofun⟩

/-- A write gives out sequence numbers beyond all that were handed over. -/
theorem after (apart : Apart store stream outputs written handings position) (sound : store.Sound)
    {write : Write} (spares : write.Spares stream)
    (room : store.nextSequence.toInt + (write.appended store).length ≤ Int64.maxValue.toInt) :
    Apart (write.after store) stream outputs (written ++ write.appended store) handings position where
  known handing hhanding := by
    obtain ⟨source, hwritten, hsource⟩ := apart.known handing hhanding
    exact ⟨source, List.mem_append_left _ hwritten, hsource⟩
  distinct := apart.distinct
  numbered handing hhanding := by
    have hlt := apart.numbered handing hhanding
    have hnext := Sound.nextSequence_after write spares.ne_clear room
    rw [SequenceNumber.lt_iff_toInt] at hlt ⊢
    omega
  passed handing hhanding source hsource hbeyond := by
    rcases mem_readable_after spares.ne_clear hsource with hold | ⟨hfresh, -⟩
    · exact apart.passed handing hhanding source hold hbeyond
    · -- the number of a fresh source was not given out when the handing was noted
      have hlt := apart.numbered handing hhanding
      have hle := (sound.appended_numbers write room hfresh).2
      rw [SequenceNumber.lt_iff_toInt] at hlt ⊢
      omega

/-- The checkpoint moves on. -/
theorem advance (apart : Apart store stream outputs written handings position) {position' : Position}
    (further : position < position') : Apart store stream outputs written handings position' where
  known := apart.known
  distinct := apart.distinct
  numbered := apart.numbered
  passed handing hhanding source hsource hbeyond := by
    refine apart.passed handing hhanding source hsource ?_
    exact Std.lt_trans further hbeyond

end Apart

/-! ## The plan of a pass -/

/-- A pass is within the group of a source at its checkpoint: `done` of it was handed over. -/
structure Midway (store : MemoryStore) (stream : StreamId) (outputs : Record → List Record)
    (written given : List Record) (handings : List Handing) (position : Position)
    (source : Record) (done todo later : List Record) : Prop where
  group : Group outputs given source done todo later
  known : source ∈ written ∧ stream.concerns source = true
  settled : store.Settled stream source
  committed : source.positionIn stream = position
  /-- No other source at the checkpoint can be read. -/
  alone : ∀ other ∈ store.readable stream, outputs other ≠ [] →
    other.positionIn stream = position → other = source
  /-- Of what was handed over, only the first outputs of the source have its sequence number. -/
  fresh : ∀ handing ∈ handings, handing.record.sequence < source.sequence ∨
    handing.record.sequence = source.sequence ∧ handing.index < done.length
  handed : ∀ index output, done[index]? = some output → Handed handings output index

/-- What a pass at a position still has to do: the rest of the group at its checkpoint, if it is within
one, and the groups of the later sources. -/
inductive Spending (store : MemoryStore) (stream : StreamId) (outputs : Record → List Record)
    (written given : List Record) (handings : List Handing) (position : Position)
    (actions : List PassAction) : Prop where
  | between (later : List Record) (ahead : Ahead store stream outputs written position later)
      (before : ∀ record ∈ given, ∀ other ∈ later, record.sequence < other.sequence)
      (unseen : ∀ handing ∈ handings, ∀ other ∈ later, handing.record.sequence < other.sequence)
      (plan : actions = groups .beforeHandling stream outputs later)
  | within (source next : Record) (done todo later : List Record)
      (ahead : Ahead store stream outputs written position later)
      (midway : Midway store stream outputs written given handings position source done
        (next :: todo) later)
      (plan : actions = handle next position :: (todo.map (handle · position)
        ++ groups .beforeHandling stream outputs later))

section

variable {store : MemoryStore} {stream : StreamId} {outputs : Record → List Record}
  {written given : List Record} {handings : List Handing} {position : Position}
  {source record : Record} {done todo later : List Record}

namespace Midway

/-- A group stays where it is when others write. -/
theorem after (midway : Midway store stream outputs written given handings position source done todo
      later) (sound : store.Sound) {write : Write} (spares : write.Spares stream)
    (room : store.nextSequence.toInt + (write.appended store).length ≤ Int64.maxValue.toInt) :
    Midway (write.after store) stream outputs (written ++ write.appended store) given handings
      position source done todo later where
  group := midway.group
  known := ⟨List.mem_append_left _ midway.known.1, midway.known.2⟩
  settled := midway.settled.after sound spares room
  committed := midway.committed
  alone other hother hshown hposition := by
    -- nothing is appended at a position that was reached
    have hreached := midway.settled.reached
    rw [midway.committed] at hreached
    have hle : other.positionIn stream ≤ position := Std.le_of_eq hposition
    exact midway.alone other (sound.mem_readable_of_le spares room hreached hother hle) hshown
      hposition
  fresh := midway.fresh
  handed := midway.handed

/-- The key of the next record of a group is new. -/
theorem key_fresh (midway : Midway store stream outputs written given handings position source done
      (record :: todo) later) (succeeded : Bool) :
    ∀ handing ∈ handings,
      handing.key ≠ Handing.key ⟨record, record.indexAfter given, succeeded⟩ := by
  intro handing hhanding heq
  obtain ⟨hsequence, hindex⟩ := Prod.mk.inj heq
  rw [midway.group.placed record midway.group.mem] at hsequence
  rcases midway.fresh handing hhanding with hlt | ⟨-, hlt⟩
  · rw [hsequence, SequenceNumber.lt_iff_toInt] at hlt
    omega
  · change handing.index = record.indexAfter given at hindex
    rw [hindex, midway.group.output.1] at hlt
    omega

/-- The next record of a group is handed over. -/
theorem hand (midway : Midway store stream outputs written given handings position source done
      (record :: todo) later) (succeeded : Bool) :
    Midway store stream outputs written (given ++ [record])
      (handings ++ [⟨record, record.indexAfter given, succeeded⟩]) position source
      (done ++ [record]) todo later := by
  obtain ⟨hindex, -⟩ := midway.group.output
  constructor
  case group => exact midway.group.hand
  case known => exact midway.known
  case settled => exact midway.settled
  case committed => exact midway.committed
  case alone => exact midway.alone
  case fresh =>
    intro handing hhanding
    rw [List.length_append, List.length_singleton]
    rcases List.mem_append.mp hhanding with hold | hnew
    · rcases midway.fresh handing hold with hlt | ⟨heq, hlt⟩
      · exact .inl hlt
      · exact .inr ⟨heq, by omega⟩
    · rw [List.mem_singleton.mp hnew]
      refine .inr ⟨midway.group.placed record midway.group.mem, ?_⟩
      show record.indexAfter given < done.length + 1
      omega
  case handed =>
    intro index output houtput
    rcases getElem?_concat houtput with hearlier | ⟨rfl, rfl⟩
    · exact (midway.handed index output hearlier).append _
    · exact ⟨_, List.mem_append_right _ List.mem_cons_self, rfl, hindex⟩

/-- What was handed over when a record of a group is. -/
theorem apart (midway : Midway store stream outputs written given handings position source done
      (record :: todo) later) (apart : Apart store stream outputs written handings position)
    (succeeded : Bool) :
    Apart store stream outputs written
      (handings ++ [⟨record, record.indexAfter given, succeeded⟩]) position := by
  obtain ⟨hindex, houtput⟩ := midway.group.output
  have hsequence := midway.group.placed record midway.group.mem
  constructor
  case known =>
    intro handing hhanding
    rcases List.mem_append.mp hhanding with hold | hnew
    · exact apart.known handing hold
    · rw [List.mem_singleton.mp hnew]
      refine ⟨source, midway.known.1, midway.known.2, ?_⟩
      show (outputs source)[record.indexAfter given]? = some record
      rw [hindex]
      exact houtput
  case distinct =>
    rw [List.map_append, List.nodup_append]
    refine ⟨apart.distinct, List.nodup_singleton _, ?_⟩
    intro key hkey other hother
    obtain ⟨handing, hhanding, rfl⟩ := List.mem_map.mp hkey
    rw [List.mem_singleton.mp hother]
    exact midway.key_fresh succeeded handing hhanding
  case numbered =>
    intro handing hhanding
    rcases List.mem_append.mp hhanding with hold | hnew
    · exact apart.numbered handing hold
    · rw [List.mem_singleton.mp hnew]
      show record.sequence < store.nextSequence
      rw [hsequence]
      exact midway.settled.numbered
  case passed =>
    intro handing hhanding other hother hbeyond
    rcases List.mem_append.mp hhanding with hold | hnew
    · exact apart.passed handing hold other hother hbeyond
    · rw [List.mem_singleton.mp hnew]
      show record.sequence < other.sequence
      rw [hsequence]
      rw [← midway.committed] at hbeyond
      exact midway.settled.aligned other hother hbeyond

/-- When a group is done, all that can be read at the checkpoint was handed over. -/
theorem all_handed (midway : Midway store stream outputs written given handings position source done
      [] later) {other : Record} (hother : other ∈ store.readable stream)
    (hposition : other.positionIn stream = position) :
    ∀ index output, (outputs other)[index]? = some output → Handed handings output index := by
  intro index output houtput
  have hshown : outputs other ≠ [] := List.ne_nil_of_mem (List.mem_of_getElem? houtput)
  rw [midway.alone other hother hshown hposition, midway.group.parts, List.append_nil] at houtput
  exact midway.handed index output houtput

end Midway

namespace Spending

/-- Others may write while a pass works through its plan. -/
theorem after {actions : List PassAction}
    (spending : Spending store stream outputs written given handings position actions)
    (sound : store.Sound) {write : Write} (spares : write.Spares stream)
    (room : store.nextSequence.toInt + (write.appended store).length ≤ Int64.maxValue.toInt) :
    Spending (write.after store) stream outputs (written ++ write.appended store) given handings
      position actions := by
  cases spending with
  | between later ahead before unseen plan =>
    exact .between later (ahead.after sound spares room) before unseen plan
  | within source next done todo later ahead midway plan =>
    exact .within source next done todo later (ahead.after sound spares room)
      (midway.after sound spares room) plan

/-- The rest of a group, and what comes after it. -/
theorem of_midway (ahead : Ahead store stream outputs written position later)
    (midway : Midway store stream outputs written given handings position source done todo later) :
    Spending store stream outputs written given handings position
      (todo.map (handle · position) ++ groups .beforeHandling stream outputs later) := by
  cases todo with
  | cons next todo => exact .within source next done todo later ahead midway rfl
  | nil =>
    -- the group is done, and the later sources have greater numbers than its source
    refine .between later ahead midway.group.before ?_ rfl
    intro handing hhanding other hother
    have hfirst := midway.group.first other hother
    rw [SequenceNumber.lt_iff_toInt] at hfirst ⊢
    rcases midway.fresh handing hhanding with hlt | ⟨heq, -⟩
    · rw [SequenceNumber.lt_iff_toInt] at hlt
      omega
    · rw [heq]
      exact hfirst

/-- A record is handed over within the group at the checkpoint. -/
theorem of_handle {place : Position} {rest : List PassAction}
    (spending : Spending store stream outputs written given handings position
      (.handle record place :: rest)) :
    place = position ∧ ∃ source done todo later,
      Ahead store stream outputs written position later ∧
      Midway store stream outputs written given handings position source done (record :: todo) later ∧
      rest = todo.map (handle · position) ++ groups .beforeHandling stream outputs later := by
  cases spending with
  | between later ahead before unseen plan =>
    cases later with
    | nil => cases plan
    | cons source later => cases plan
  | within source next done todo later ahead midway plan =>
    cases plan
    exact ⟨rfl, source, done, todo, later, ahead, midway, rfl⟩

/-- The position of a group is committed: no other source that can be read lies up to it, and the pass
is within the group then. -/
theorem commit {place : Position} {rest : List PassAction}
    (spending : Spending store stream outputs written given handings position
      (.commit place :: rest))
    (placed : ∀ source output, output ∈ outputs source → output.sequence = source.sequence) :
    position < place ∧ place.toInt ≤ store.horizon stream ∧
      (∃ next todo, rest = handle next place :: todo) ∧
      (∀ other ∈ store.readable stream, outputs other ≠ [] → position < other.positionIn stream →
        other.positionIn stream ≤ place → other.positionIn stream = place) ∧
      Spending store stream outputs written given handings place rest := by
  cases spending with
  -- within a group the plan begins with a handling
  | within source next done todo later ahead midway plan => cases plan
  | between later ahead before unseen plan =>
    cases later with
    | nil => cases plan
    | cons source later =>
      cases plan
      have hmem : source ∈ source :: later := List.mem_cons_self
      have hordered := (List.pairwise_cons.mp ahead.ordered).1
      have hbeyond := ahead.beyond source hmem
      have hmidway : Midway store stream outputs written given handings (source.positionIn stream)
          source [] (outputs source) later := by
        constructor
        case group =>
          exact .opening (placed source) before fun other hother => (hordered other hother).2
        case known => exact ahead.known source hmem
        case settled => exact ahead.settled source hmem
        case committed => rfl
        case alone =>
          intro other hother hshown hposition
          exact ahead.eq_head hother hshown (hposition ▸ hbeyond) (Std.le_of_eq hposition)
        case fresh => exact fun handing hhanding => .inl (unseen handing hhanding source hmem)
        case handed => exact nofun
      refine ⟨hbeyond, (ahead.settled source hmem).reached, ?_, ?_, .of_midway ahead.rest hmidway⟩
      · obtain ⟨next, todo, hshown⟩ := List.exists_cons_of_ne_nil (ahead.shown source hmem)
        rw [hshown]
        exact ⟨next, _, rfl⟩
      · intro other hother hshown hafter hle
        rw [ahead.eq_head hother hshown hafter hle]

end Spending

end

/-! ## What holds at every moment -/

namespace Course

variable {κ η : Type} {processor : Processor MemoryStore κ η}
  {saved : String → κ → Option Checkpoint} {outputs : Record → List Record} {course : Course κ η}

/-- What holds in a phase of a pass. -/
def SpendingPhase (config : ProcessorConfig) (saved : String → κ → Option Checkpoint)
    (outputs : Record → List Record) (course : Course κ η) : PassPhase → Prop
  | .loading => course.given = []
  | .reading checkpoint => course.given = [] ∧ checkpoint = course.persisted config saved
  | .acting checkpoint actions =>
    checkpoint = course.persisted config saved ∧
      Spending course.place.store config.stream outputs course.written course.given course.handings
        checkpoint.position actions
  | .ended _ => False

/-- What can be read up to the checkpoint was handed over, but for groups in which a pass failed or was
abandoned and the one that the pass under way is handing over. -/
def Accounted (config : ProcessorConfig) (outputs : Record → List Record) (course : Course κ η)
    (position : Position) : Prop :=
  ∀ source ∈ course.place.store.readable config.stream, source.positionIn config.stream ≤ position →
    (∀ index output, (outputs source)[index]? = some output →
        Handed course.handings output index) ∨
      source.positionIn config.stream ∈ course.interrupted ∨
      course.within = some (source.positionIn config.stream)

/-- What holds at every moment of a course that commits before handling. -/
structure Spent (config : ProcessorConfig) (saved : String → κ → Option Checkpoint)
    (outputs : Record → List Record) (course : Course κ η) : Prop
    extends Grounded config saved course where
  apart : Apart course.place.store config.stream outputs course.written course.handings
    (course.persisted config saved).position
  accounted : course.Accounted config outputs (course.persisted config saved).position
  phase : ∀ phase, course.pass = some phase → SpendingPhase config saved outputs course phase

theorem within_of_quiet {phase : PassPhase} (hphase : course.pass = some phase)
    (quiet : phase.upcoming = none) : course.within = none := by
  rw [within, upcoming, hphase, Option.bind_some, quiet]
  rfl

theorem within_of_handle {checkpoint : Checkpoint} {record : Record} {position : Position}
    {rest : List PassAction}
    (phase : course.pass = some (.acting checkpoint (.handle record position :: rest))) :
    course.within = some position := by
  rw [within, upcoming, phase]
  rfl

/-- Nothing is left out when a pass stops: the group that it was handing over is noted. -/
theorem Accounted.stop {config : ProcessorConfig} {position : Position}
    (accounted : course.Accounted config outputs position) :
    course.stop.Accounted config outputs position := by
  intro source hsource hle
  rcases accounted source hsource hle with hhanded | hinterrupted | hwithin
  · exact .inl hhanded
  · exact .inr (.inl (List.mem_append_left _ hinterrupted))
  · refine .inr (.inl (List.mem_append_right _ ?_))
    rw [hwithin]
    exact List.mem_cons_self

/-- A step of a pass that is not handing a group over, and hands nothing over. -/
theorem Accounted.of_quiet {config : ProcessorConfig} {position : Position} {course' : Course κ η}
    (accounted : course.Accounted config outputs position) (quiet : course.within = none)
    (store : course'.place.store = course.place.store) (handings : course'.handings = course.handings)
    (interrupted : course'.interrupted = course.interrupted) :
    course'.Accounted config outputs position := by
  intro source hsource hle
  rw [store] at hsource
  rw [handings, interrupted]
  rcases accounted source hsource hle with hhanded | hinterrupted | hwithin
  · exact .inl hhanded
  · exact .inr (.inl hinterrupted)
  · rw [quiet] at hwithin
    cases hwithin

/-- What was handed over only grows. -/
theorem Accounted.hand {config : ProcessorConfig} {position : Position} {record : Record}
    (accounted : course.Accounted config outputs position) (succeeded : Bool) :
    (course.hand record succeeded).Accounted config outputs position := by
  intro source hsource hle
  refine (accounted source hsource hle).imp_left fun hhanded index output houtput => ?_
  exact (hhanded index output houtput).append _

theorem spent_start (config : ProcessorConfig) (outputs : Record → List Record)
    (before : List Write) {checkpoints : κ} (handler : η)
    (absent : saved config.name checkpoints = none)
    (few : ((start before checkpoints handler).written.length : Int) < Int64.maxValue.toInt) :
    Spent config saved outputs (start before checkpoints handler) where
  toGrounded := grounded_start config before handler absent few
  apart := .nil
  accounted _ hsource hle :=
    ((grounded_start config before handler absent few).not_covered absent hsource hle).elim
  phase := nofun

/-- A write that spares the stream. -/
theorem Spent.write {config : ProcessorConfig} (spent : Spent config saved outputs course)
    {call : Write} (spares : call.Spares config.stream)
    (few : ((course.write call).written.length : Int) < Int64.maxValue.toInt) :
    Spent config saved outputs (course.write call) := by
  obtain ⟨room, hgrounded⟩ := spent.toGrounded.write spares few
  constructor
  case toGrounded => exact hgrounded
  case apart => exact spent.apart.after spent.sound spares room
  case accounted =>
    intro source hsource hle
    have hold := spent.sound.mem_readable_of_le spares room spent.reached hsource hle
    exact spent.accounted source hold hle
  case phase =>
    intro phase hphase
    have hold := spent.phase phase hphase
    cases phase with
    | loading => exact hold
    | reading checkpoint => exact hold
    | acting checkpoint actions => exact ⟨hold.1, hold.2.after spent.sound spares room⟩
    | ended outcome => exact hold

/-- A step that hands nothing over and keeps the checkpoint, outside of groups. -/
theorem Spent.of_quiet {config : ProcessorConfig} {course' : Course κ η}
    (spent : Spent config saved outputs course) (quiet : course.within = none)
    (store : course'.place.store = course.place.store) (written : course'.written = course.written)
    (kept : saved config.name course'.place.checkpoints = saved config.name course.place.checkpoints)
    (handings : course'.handings = course.handings)
    (interrupted : course'.interrupted = course.interrupted)
    (phase : ∀ phase, course'.pass = some phase → SpendingPhase config saved outputs course' phase) :
    Spent config saved outputs course' where
  toGrounded := spent.toGrounded.of_kept store written kept
  apart := by
    rw [store, written, handings, persisted, persisted_congr config kept]
    exact spent.apart
  accounted := by
    rw [persisted, persisted_congr config kept]
    exact spent.accounted.of_quiet quiet store handings interrupted
  phase := phase

/-- A record is handled. -/
theorem Spent.handled (spent : Spent processor.config saved outputs course) {checkpoint : Checkpoint}
    {record : Record} {position : Position} {rest : List PassAction} {handler : η}
    {stats : ProcessorStats}
    (phase : course.pass = some (.acting checkpoint (.handle record position :: rest))) :
    Spent processor.config saved outputs
      { course.hand record true with
        pass := some (.acting checkpoint rest),
        place := { course.place with handler, stats } } := by
  obtain ⟨rfl, spending⟩ := spent.phase _ phase
  obtain ⟨rfl, source, done, todo, later, ahead, midway, rfl⟩ := spending.of_handle
  have hmidway := midway.hand true
  constructor
  case toGrounded => exact spent.toGrounded.of_kept rfl rfl rfl
  case apart => exact midway.apart spent.apart true
  case accounted =>
    intro other hother hle
    rcases spent.accounted.hand true other hother hle with hhanded | hinterrupted | hwithin
    · exact .inl hhanded
    · exact .inr (.inl hinterrupted)
    · -- the record is of this group: either more of the group is to come, or it is done
      have hposition := Option.some.inj ((within_of_handle phase).symm.trans hwithin)
      cases todo with
      | cons next todo => exact .inr (.inr (congrArg some hposition))
      | nil => exact .inl (hmidway.all_handed hother hposition.symm)
  case phase =>
    intro phase hphase
    cases hphase
    exact ⟨rfl, .of_midway ahead hmidway⟩

/-- The handler fails, and the pass with it. -/
theorem Spent.failed (spent : Spent processor.config saved outputs course) {checkpoint : Checkpoint}
    {record : Record} {position : Position} {rest : List PassAction} {handler : η}
    {stats : ProcessorStats}
    (phase : course.pass = some (.acting checkpoint (.handle record position :: rest))) :
    Spent processor.config saved outputs
      { (course.hand record false).stop with place := { course.place with handler, stats } } := by
  obtain ⟨rfl, spending⟩ := spent.phase _ phase
  obtain ⟨rfl, source, done, todo, later, ahead, midway, rfl⟩ := spending.of_handle
  constructor
  case toGrounded => exact spent.toGrounded.of_kept rfl rfl rfl
  case apart => exact midway.apart spent.apart false
  case accounted => exact (spent.accounted.hand false).stop
  case phase => exact nofun

/-- A position is committed, and its group is begun. -/
theorem Spent.committed (keeps : processor.checkpoints.Keeps saved) (hshows : processor.Shows outputs)
    (spent : Spent processor.config saved outputs course) {checkpoint : Checkpoint}
    {position : Position} {rest : List PassAction} {checkpoints : κ}
    (phase : course.pass = some (.acting checkpoint (.commit position :: rest)))
    (save : processor.checkpoints.save { checkpoint with position } course.place.checkpoints
      = (.ok (), checkpoints)) :
    Spent processor.config saved outputs
      { course with
        pass := some (.acting { checkpoint with position } rest),
        place.checkpoints := checkpoints } := by
  have hquiet := within_of_quiet phase rfl
  obtain ⟨rfl, spending⟩ := spent.phase _ phase
  obtain ⟨hfurther, hreached, ⟨next, todo, rfl⟩, honly, hrest⟩ :=
    spending.commit fun source output h => (hshows.placed h).1
  have hpersisted : processor.config.persisted saved checkpoints
      = { course.persisted processor.config saved with position } :=
    keeps.persisted_of_saved processor.config save
  constructor
  case toGrounded =>
    refine spent.toGrounded.of_reached rfl rfl ?_
    rw [persisted, hpersisted]
    exact hreached
  case apart =>
    show Apart _ _ _ _ _ (processor.config.persisted saved checkpoints).position
    rw [hpersisted]
    exact spent.apart.advance hfurther
  case accounted =>
    show Accounted _ _ _ (processor.config.persisted saved checkpoints).position
    rw [hpersisted]
    intro other hother hle
    by_cases hold : other.positionIn processor.config.stream
        ≤ (course.persisted processor.config saved).position
    · rcases spent.accounted other hother hold with hhanded | hinterrupted | hwithin
      · exact .inl hhanded
      · exact .inr (.inl hinterrupted)
      · cases hquiet.symm.trans hwithin
    · by_cases hempty : outputs other = []
      · left
        intro index output houtput
        rw [hempty] at houtput
        cases houtput
      · -- beyond the old checkpoint there is only the group that the pass is handing over now
        have hbeyond : (course.persisted processor.config saved).position
            < other.positionIn processor.config.stream := Std.not_le.mp hold
        rw [honly other hother hempty hbeyond hle]
        exact .inr (.inr rfl)
  case phase =>
    intro phase hphase
    cases hphase
    exact ⟨hpersisted.symm, hrest⟩

/-- The pass ends where it is. -/
theorem Spent.stopped {config : ProcessorConfig} (spent : Spent config saved outputs course)
    {checkpoints : κ}
    (kept : saved config.name checkpoints = saved config.name course.place.checkpoints) :
    Spent config saved outputs { course.stop with place.checkpoints := checkpoints } where
  toGrounded := spent.toGrounded.of_kept rfl rfl kept
  apart := by
    show Apart _ _ _ _ _ (config.persisted saved checkpoints).position
    rw [persisted_congr config kept]
    exact spent.apart
  accounted := by
    show Accounted _ _ _ (config.persisted saved checkpoints).position
    rw [persisted_congr config kept]
    exact spent.accounted.stop
  phase := nofun

/-- Every move of the pass keeps what holds. -/
theorem Spent.move (strategy : processor.config.strategy = .beforeHandling)
    (hshows : processor.Shows outputs) (keeps : processor.checkpoints.Keeps saved)
    {course' : Course κ η} (spent : Spent processor.config saved outputs course)
    (move : Move processor saved course course') :
    Spent processor.config saved outputs course' := by
  cases move with
  | idle => exact spent
  | begun fresh =>
    have hquiet : course.within = none := by rw [within, upcoming, fresh, Option.bind_none]; rfl
    refine spent.of_quiet hquiet rfl rfl rfl rfl rfl fun phase hphase => ?_
    cases hphase
    rfl
  | loaded phase loaded =>
    have hgiven := spent.phase _ phase
    obtain ⟨-, hpersisted⟩ := Processor.checkpoint_eq_persisted keeps loaded
    refine spent.of_quiet (within_of_quiet phase rfl) rfl rfl (kept_of_loaded keeps loaded) rfl rfl
      fun phase hphase => ?_
    cases hphase
    exact ⟨hgiven, hpersisted⟩
  | @planned checkpoint records phase read =>
    obtain ⟨hgiven, hpersisted⟩ := spent.phase _ phase
    refine spent.of_quiet (within_of_quiet phase rfl) rfl rfl rfl rfl rfl fun phase hphase => ?_
    cases hphase
    refine ⟨hpersisted, ?_⟩
    obtain ⟨sources, ahead, hreadable, hplan⟩ :=
      hshows.plan spent.sound spent.known processor.config.strategy read
    rw [hplan, strategy]
    refine .between sources ahead ?_ ?_ rfl
    · -- the pass has not handed anything over
      show ∀ record ∈ course.given, _
      rw [hgiven]
      intro record hrecord
      cases hrecord
    · intro handing hhanding source hsource
      have hbeyond := ahead.beyond source hsource
      rw [hpersisted] at hbeyond
      exact spent.apart.passed handing hhanding source (hreadable source hsource) hbeyond
  | handled phase answer => exact spent.handled phase
  | failed phase answer => exact spent.failed phase
  | committed phase save => exact spent.committed keeps hshows phase save
  | stopped kept => exact spent.stopped kept

/-- **Nothing is handled twice**: whatever fails or is abandoned, and whatever others append and
truncate, each output of a source is handed over at most once, and an output that a read gives up to
the checkpoint was handed over or is of a group in which a pass failed or was abandoned, or which the
pass under way is handing over. What is noted as handed over is what the handler went through. -/
theorem handled_at_most_once (config : ProcessorConfig)
    (strategy : config.strategy = .beforeHandling) (chain : Option UpcastChain)
    (keeps : (chain.getD .identity).KeepsPlace) (store : CheckpointStore κ)
    (atomic : store.Atomic saved) (handler : Handler η) (now : Timestamp) (fresh : EventId)
    (before : List Write) (checkpoints : κ) (absent : saved config.name checkpoints = none) (state : η)
    (actions : List Action) (spares : ∀ action ∈ actions, action.Spares config.stream)
    (few : (((start before checkpoints state).run (.reading config chain store handler now fresh)
      actions).written.length : Int) < Int64.maxValue.toInt) :
    let processor := Processor.reading config chain store handler now fresh
    let course := (start before checkpoints state).run processor actions
    course.Truthful handler state ∧
      (course.handings.map Handing.key).Nodup ∧
      (∀ handing ∈ course.handings, ∃ source ∈ course.written,
        config.stream.concerns source = true ∧
          ((chain.getD .identity).shown config.filter source)[handing.index]?
            = some handing.record) ∧
      ∀ first slice, (processor.store.read config.stream
          { ReadOptions.forward with position := first, filter := config.filter }
          course.place.store).outcome = .ok slice →
        ∀ index record, slice.records[index]? = some record →
          record.positionIn config.stream ≤ (course.persisted config saved).position →
            Handed course.handings record (record.indexAfter (slice.records.take index)) ∨
              record.positionIn config.stream ∈ course.interrupted ∨
              course.within = some (record.positionIn config.stream) := by
  intro processor course
  have hshows := Processor.reading_shows config keeps store handler now fresh
  have hbefore := @length_written_le _ _ processor saved (start before checkpoints state)
    hshows.readsOnly atomic actions
  have hstart := spent_start config ((chain.getD .identity).shown config.filter) before state absent
    (Int.lt_of_le_of_lt (Int.ofNat_le.mpr hbefore) few)
  have spent : Spent config saved ((chain.getD .identity).shown config.filter) course :=
    holds_run hshows.readsOnly atomic (fun spent => spent.move strategy hshows atomic.toKeeps)
      (fun spent => spent.write) hstart actions spares few
  refine ⟨truthful_run processor before checkpoints state actions, spent.apart.distinct, spent.apart.known, ?_⟩
  intro first slice hread index record hrecord hle
  obtain ⟨source, hsource, hposition, houtput⟩ := spent.sound.output_of_read keeps hread hrecord
  rw [← hposition] at hle ⊢
  refine (spent.accounted source hsource hle).imp_left fun hhanded => ?_
  exact hhanded _ record houtput

/-- A processor that commits before handling. -/
def spendingConfig : ProcessorConfig := ⟨"p", ⟨"a"⟩, none, .beforeHandling⟩

/-- Counts what it handles; it rejects the first right part that it sees. -/
def rejecting : Handler Nat := fun record count =>
  if record.typeName = "right" ∧ count < 2 then (.error ["not now"], count) else (.ok (), count + 1)

def spendingBefore : List Write :=
  [.append ⟨"a"⟩ [⟨⟨"1"⟩, "pair", .null, .empty⟩, ⟨⟨"2"⟩, "pair", .null, .empty⟩] none default]

/-- The first pass fails at its commit, the second one at the right part of the first pair, and the third
one is abandoned between the parts of the second pair. The first pair is truncated meanwhile. -/
def spendingActions : List Action :=
  [.begin, .advance, .advance, .advance,
    .begin, .advance, .advance, .advance, .advance, .advance,
    .begin, .advance, .advance, .write (.truncate ⟨"a"⟩ ⟨1⟩ default ⟨"m"⟩), .advance, .advance,
    .abandon]

def spendingCourse : Course (Faulty CheckpointOperation CheckpointTable) Nat :=
  (start spendingBefore ⟨[⟨.save, .checkpoint "p" (.streamNotFound ⟨"a"⟩), 1⟩], .empty⟩ 0).run
    (.reading spendingConfig (some UpcastChain.splitting) CheckpointTable.store.unreliable rejecting
      default default) spendingActions

theorem handled_at_most_once_sample :
    (∀ action ∈ spendingActions, action.Spares ⟨"a"⟩) ∧
      (spendingCourse.written.length : Int) < Int64.maxValue.toInt ∧
      (spendingCourse.handings.map fun handing =>
          (handing.record.typeName, handing.key, handing.succeeded))
        = [("left", (⟨1⟩, 0), true), ("right", (⟨1⟩, 1), false), ("left", (⟨2⟩, 0), true)] ∧
      spendingCourse.place.handler = 2 ∧ spendingCourse.place.stats = ⟨2, 1⟩ ∧
      spendingCourse.Truthful rejecting 0 ∧
      (spendingCourse.handings.map Handing.key).Nodup ∧
      ∃ slice, ((reader (some UpcastChain.splitting) default default).read ⟨"a"⟩ .forward
          spendingCourse.place.store).outcome = .ok slice ∧
        slice.records.map Record.typeName = ["left", "right"] ∧
        ∃ record, slice.records[1]? = some record ∧
          record.positionIn ⟨"a"⟩ ≤ (⟨1⟩ : Position) ∧
          (Handed spendingCourse.handings record 1 ∨
            record.positionIn ⟨"a"⟩ ∈ spendingCourse.interrupted ∨
            spendingCourse.within = some (record.positionIn ⟨"a"⟩)) :=
  have spares : ∀ action ∈ spendingActions, action.Spares ⟨"a"⟩ := by decide
  have few : (spendingCourse.written.length : Int) < Int64.maxValue.toInt := by decide
  have read : ((reader (some UpcastChain.splitting) default default).read ⟨"a"⟩ .forward
      spendingCourse.place.store).outcome = .ok _ := rfl
  have atomic := CheckpointTable.atomic.unreliable
  have holds := handled_at_most_once spendingConfig rfl (some UpcastChain.splitting)
    UpcastChain.splitting_keepsPlace _ atomic rejecting default default spendingBefore
    ⟨[⟨.save, .checkpoint "p" (.streamNotFound ⟨"a"⟩), 1⟩], .empty⟩ rfl 0 spendingActions spares few
  ⟨spares, few, by decide, by decide, by decide, holds.1, holds.2.1, _, read, by decide, _, rfl, by decide,
    holds.2.2.2 .start _ read 1 _ rfl (by decide)⟩

end Course

end EventJournal
