import EventJournal.Proofs.Process.Course
import Mathlib.Logic.Function.Basic

/-!
# Processors side by side

Several processors work on one store in memory and keep their checkpoints in one table, each under a name
of its own. Each has a `Desk`: its handler's state, its counts, its passes and what came of them. An `Office`
is the store, the table and all desks; its members act in any order, and others write to the store in
between. A member may have several passes under way, and a pass that is never advanced again is one that
was abandoned.

What one member has before it is its `Station`. Two stations are alike to it if they differ only in the
checkpoints of other names.

* `Colleague.perform_spares` — a deed leaves the store and the checkpoints of all other names alone.
* `Colleague.perform_alike` — on stations that are alike, a deed comes to the same.
* `Office.unaffected_by_others` — the main statement: every member does what it would do if no other did
  anything.
-/

namespace EventJournal

/-! ## One processor -/

/-- A processor that reads the store in memory, through a chain if there is one, and keeps its checkpoint in
the table. -/
structure Colleague (η : Type) where
  config : ProcessorConfig
  chain : Option UpcastChain
  handler : Handler η

/-- What is a processor's own. -/
structure Desk (η : Type) where
  handler : η
  stats : ProcessorStats
  /-- All passes ever begun; one that ended holds what it returned. -/
  passes : List PassPhase
  /-- The records handed over, each with the handler's answer. -/
  calls : List (Record × Except (List String) Unit)
  /-- What the resets returned. -/
  resets : List (Outcome Unit)
  /-- What the processor reported. -/
  samples : MetricLog

/-- What a processor has before it: the store and the table, which it shares, and its desk. -/
structure Station (η : Type) where
  store : MemoryStore
  checkpoints : CheckpointTable
  desk : Desk η

/-- What a processor may do. -/
inductive Deed where
  | begin
  /-- One of its passes makes a step. -/
  | advance (pass : Nat)
  | reset
  deriving Repr, DecidableEq, Inhabited

/-- A desk before the first pass. -/
def Desk.clean (handler : η) : Desk η := ⟨handler, ⟨0, 0⟩, [], [], [], []⟩

/-- The workplace of the passes at a station. -/
def Station.place (station : Station η) : Workplace MemoryStore CheckpointTable η :=
  ⟨station.store, station.checkpoints, station.desk.handler, station.desk.stats⟩

/-- The station after a step of one of the passes, and the call that was made in it. -/
def Station.moved (station : Station η) (pass : Nat)
    (call : Option (Record × Except (List String) Unit)) :
    Option (PassView MemoryStore CheckpointTable η × MetricLog) → Station η
  | none => station
  | some (view, samples) =>
    { store := view.place.store, checkpoints := view.place.checkpoints,
      desk :=
        { station.desk with
          handler := view.place.handler, stats := view.place.stats,
          passes := station.desk.passes.set pass view.phase,
          calls := station.desk.calls ++ call.toList,
          samples := station.desk.samples ++ samples } }

namespace Colleague

variable {η : Type}

/-- The processor that a colleague is. -/
def processor (colleague : Colleague η) : Processor MemoryStore CheckpointTable η :=
  .reading colleague.config colleague.chain CheckpointTable.store colleague.handler default default

/-- The name of the processor and of its checkpoint. -/
def name (colleague : Colleague η) : String := colleague.config.name

/-- The call of the handler that a phase makes next, with its answer. -/
def call? (colleague : Colleague η) (phase : PassPhase) (handler : η) :
    Option (Record × Except (List String) Unit) :=
  phase.upcoming.map fun (record, _) => (record, (colleague.handler record handler).1)

/-- The station after a deed; there is nothing to advance if there is no such pass. -/
def perform (colleague : Colleague η) (deed : Deed) (station : Station η) : Station η :=
  match deed with
  | .begin => { station with desk.passes := station.desk.passes ++ [.loading] }
  | .advance pass =>
    match station.desk.passes[pass]? with
    | some phase =>
      station.moved pass (colleague.call? phase station.desk.handler)
        (colleague.processor.passStep ⟨phase, station.place⟩)
    | none => station
  | .reset =>
    let answer := colleague.processor.reset station.checkpoints
    { station with
      checkpoints := answer.state,
      desk :=
        { station.desk with
          resets := station.desk.resets ++ [answer.outcome],
          samples := station.desk.samples ++ answer.samples } }

end Colleague

/-! ## What a step shows and touches -/

/-- A pass goes on with a checkpoint of a name, if it has one yet. -/
def PassPhase.IsOf (phase : PassPhase) (name : String) : Prop :=
  match phase with
  | .reading checkpoint => checkpoint.id = name
  | .acting checkpoint _ => checkpoint.id = name
  | _ => True

/-- Two workplaces differ, if at all, in the checkpoints of other names. -/
structure Workplace.Alike {η : Type} (name : String)
    (a b : Workplace MemoryStore CheckpointTable η) : Prop where
  store : a.store = b.store
  checkpoint : a.checkpoints.load name = b.checkpoints.load name
  handler : a.handler = b.handler
  stats : a.stats = b.stats

/-- Two stations differ, if at all, in the checkpoints of other names. -/
structure Station.Alike {η : Type} (name : String) (a b : Station η) : Prop where
  store : a.store = b.store
  checkpoint : a.checkpoints.load name = b.checkpoints.load name
  desk : a.desk = b.desk

/-- All passes at a desk go on with checkpoints of a name, if they have one yet. -/
def Desk.IsOf {η : Type} (desk : Desk η) (name : String) : Prop :=
  ∀ phase ∈ desk.passes, phase.IsOf name

theorem CheckpointTable.id_of_load {table : CheckpointTable} {name : String} {checkpoint : Checkpoint}
    (h : table.load name = some checkpoint) : checkpoint.id = name := by
  simpa using List.find?_some h

theorem Station.Alike.place {η : Type} {a b : Station η} {name : String} (alike : a.Alike name b) :
    a.place.Alike name b.place where
  store := alike.store
  checkpoint := alike.checkpoint
  handler := congrArg Desk.handler alike.desk
  stats := congrArg Desk.stats alike.desk

theorem Station.Alike.trans {η : Type} {a b c : Station η} {name : String} (hab : a.Alike name b)
    (hbc : b.Alike name c) : a.Alike name c :=
  ⟨hab.store.trans hbc.store, hab.checkpoint.trans hbc.checkpoint, hab.desk.trans hbc.desk⟩

theorem Station.moved_alike {η : Type} {a b : Station η} {name : String} (alike : a.Alike name b) {pass : Nat}
    {call : Option (Record × Except (List String) Unit)}
    {one two : Option (PassView MemoryStore CheckpointTable η × MetricLog)}
    (steps : Option.Rel (fun one two => one.1.phase = two.1.phase ∧
      one.1.place.Alike name two.1.place ∧ one.2 = two.2) one two) :
    (a.moved pass call one).Alike name (b.moved pass call two) := by
  cases steps with
  | none => exact alike
  | some step =>
    obtain ⟨hphase, hplace, hsamples⟩ := step
    refine ⟨hplace.store, hplace.checkpoint, ?_⟩
    simp only [Station.moved, hphase, hplace.handler, hplace.stats, hsamples, alike.desk]

/-- A checkpoint that is accepted bears the name of the processor. -/
theorem Processor.id_of_accept {σ κ η : Type} {processor : Processor σ κ η}
    {loaded : Option Checkpoint} {checkpoint : Checkpoint}
    (named : ∀ saved, loaded = some saved → saved.id = processor.config.name)
    (h : processor.accept loaded = .ok checkpoint) : checkpoint.id = processor.config.name := by
  cases loaded with
  | none =>
    cases h
    rfl
  | some saved =>
    simp only [accept] at h
    split at h
    · cases h
      exact named _ rfl
    · cases h

namespace Colleague

variable {η : Type} {colleague : Colleague η} {phase : PassPhase}

theorem load_eq (colleague : Colleague η) (place : Workplace MemoryStore CheckpointTable η) :
    colleague.processor.load place
      = ⟨colleague.processor.accept (place.checkpoints.load colleague.name), place, []⟩ := rfl

theorem readsOnly (colleague : Colleague η) : colleague.processor.ReadsOnly :=
  fun _ _ => MemoryStore.reader_read_state ..

theorem passStep_spares {place : Workplace MemoryStore CheckpointTable η}
    {view : PassView MemoryStore CheckpointTable η} {samples : MetricLog}
    (isOf : phase.IsOf colleague.name)
    (h : colleague.processor.passStep ⟨phase, place⟩ = some (view, samples)) :
    view.place.store = place.store ∧ view.phase.IsOf colleague.name ∧
      ∀ other, other ≠ colleague.name →
        view.place.checkpoints.load other = place.checkpoints.load other := by
  cases phase with
  | loading =>
    simp only [Processor.passStep, load_eq, Processor.passAfter] at h
    cases h
    refine ⟨rfl, ?_, fun _ _ => rfl⟩
    dsimp only
    split
    · rename_i checkpoint haccept
      exact Processor.id_of_accept (fun _ => CheckpointTable.id_of_load) haccept
    · trivial
  | reading checkpoint =>
    have hstate := colleague.readsOnly checkpoint.position place.store
    simp only [Processor.passStep, Processor.prepare, Processor.passAfter, hstate] at h
    cases h
    refine ⟨rfl, ?_, fun _ _ => rfl⟩
    dsimp only
    split
    · exact isOf
    · trivial
  | acting checkpoint actions =>
    cases actions with
    | nil =>
      cases h
      exact ⟨rfl, trivial, fun _ _ => rfl⟩
    | cons action rest =>
      cases action with
      | handle record position =>
        simp only [Processor.passStep, Processor.act, Processor.handle, Processor.passAfter] at h
        cases hhandler : colleague.processor.handler record place.handler with
        | mk result handler =>
          rw [hhandler] at h
          cases result with
          | error reasons =>
            cases h
            exact ⟨rfl, trivial, fun _ _ => rfl⟩
          | ok done =>
            cases h
            exact ⟨rfl, isOf, fun _ _ => rfl⟩
      | commit position =>
        cases h
        -- what is saved bears the name of the processor
        refine ⟨rfl, isOf, fun other hother => ?_⟩
        exact CheckpointTable.load_save_of_ne _ _ (isOf.symm ▸ hother)
  | ended outcome => cases h

/-- On workplaces that are alike a step goes on alike. -/
theorem passStep_alike {a b : Workplace MemoryStore CheckpointTable η} (isOf : phase.IsOf colleague.name)
    (alike : a.Alike colleague.name b) :
    Option.Rel (fun one two => one.1.phase = two.1.phase ∧
        one.1.place.Alike colleague.name two.1.place ∧ one.2 = two.2)
      (colleague.processor.passStep ⟨phase, a⟩) (colleague.processor.passStep ⟨phase, b⟩) := by
  obtain ⟨store, table, handler, stats⟩ := a
  obtain ⟨store', table', handler', stats'⟩ := b
  obtain ⟨hstore, hload, hhandler, hstats⟩ := alike
  cases hstore
  cases hhandler
  cases hstats
  cases phase with
  | loading =>
    simp only [Processor.passStep, load_eq, Processor.passAfter]
    refine .some ⟨?_, ⟨rfl, hload, rfl, rfl⟩, rfl⟩
    dsimp only at hload ⊢
    rw [hload]
  | reading checkpoint => exact .some ⟨rfl, ⟨rfl, hload, rfl, rfl⟩, rfl⟩
  | acting checkpoint actions =>
    cases actions with
    | nil => exact .some ⟨rfl, ⟨rfl, hload, rfl, rfl⟩, rfl⟩
    | cons action rest =>
      cases action with
      | handle record position =>
        simp only [Processor.passStep, Processor.act, Processor.handle, Processor.passAfter]
        cases colleague.processor.handler record handler with
        | mk result handler =>
          cases result with
          | error reasons => exact .some ⟨rfl, ⟨rfl, hload, rfl, rfl⟩, rfl⟩
          | ok done => exact .some ⟨rfl, ⟨rfl, hload, rfl, rfl⟩, rfl⟩
      | commit position =>
        refine .some ⟨rfl, ⟨rfl, ?_, rfl, rfl⟩, rfl⟩
        have hid : ({ checkpoint with position } : Checkpoint).id = colleague.name := isOf
        show (table.save { checkpoint with position }).load colleague.name
          = (table'.save { checkpoint with position }).load colleague.name
        rw [← hid, CheckpointTable.load_save_self, CheckpointTable.load_save_self]
  | ended outcome => exact .none

/-! ## Deeds -/

theorem reset_eq (colleague : Colleague η) (table : CheckpointTable) :
    colleague.processor.reset table
      = ⟨.ok (), table.delete colleague.name, [Sample.checkpointPosition colleague.name .start]⟩ := rfl

/-- A deed leaves the store and the checkpoints of all other names alone. -/
theorem perform_spares {station : Station η} (isOf : station.desk.IsOf colleague.name) (deed : Deed) :
    (colleague.perform deed station).store = station.store ∧
      (colleague.perform deed station).desk.IsOf colleague.name ∧
      ∀ other, other ≠ colleague.name →
        (colleague.perform deed station).checkpoints.load other = station.checkpoints.load other := by
  cases deed with
  | begin =>
    refine ⟨rfl, ?_, fun _ _ => rfl⟩
    intro phase hphase
    rcases List.mem_append.mp hphase with hphase | hphase
    · exact isOf phase hphase
    · rw [List.mem_singleton.mp hphase]
      trivial
  | advance pass =>
    simp only [perform]
    split
    · rename_i phase hphase
      cases hstep : colleague.processor.passStep ⟨phase, station.place⟩ with
      | none => exact ⟨rfl, isOf, fun _ _ => rfl⟩
      | some step =>
        obtain ⟨view, samples⟩ := step
        obtain ⟨hstore, hview, hother⟩ :=
          passStep_spares (isOf phase (List.mem_of_getElem? hphase)) hstep
        refine ⟨hstore, ?_, hother⟩
        intro later hlater
        rcases List.mem_or_eq_of_mem_set hlater with hlater | rfl
        · exact isOf later hlater
        · exact hview
    · exact ⟨rfl, isOf, fun _ _ => rfl⟩
  | reset => exact ⟨rfl, isOf, fun _ hother => CheckpointTable.load_delete_of_ne _ hother⟩

/-- On stations that are alike a deed comes to the same. -/
theorem perform_alike {a b : Station η} (isOf : a.desk.IsOf colleague.name)
    (alike : a.Alike colleague.name b) (deed : Deed) :
    (colleague.perform deed a).Alike colleague.name (colleague.perform deed b) := by
  have hdesk := alike.desk
  cases deed with
  | begin => exact ⟨alike.store, alike.checkpoint, by simp only [perform, hdesk]⟩
  | advance pass =>
    simp only [perform, ← hdesk]
    cases hphase : a.desk.passes[pass]? with
    | none => exact alike
    | some phase =>
      have hisOf := isOf phase (List.mem_of_getElem? hphase)
      exact Station.moved_alike alike (passStep_alike hisOf alike.place)
  | reset =>
    refine ⟨alike.store, ?_, by simp only [perform, reset_eq, hdesk]⟩
    show (a.checkpoints.delete colleague.name).load colleague.name
      = (b.checkpoints.delete colleague.name).load colleague.name
    rw [CheckpointTable.load_delete_self, CheckpointTable.load_delete_self]

end Colleague

/-! ## Many processors -/

/-- The store, the table and the desks of all members. -/
structure Office (ι η : Type) where
  store : MemoryStore
  checkpoints : CheckpointTable
  desks : ι → Desk η

namespace Office

/-- What may happen next: a write to the store, or a deed of a member. -/
inductive Action (ι : Type) where
  | write (call : MemoryStore.Write)
  | perform (member : ι) (deed : Deed)
  deriving Repr, DecidableEq

variable {ι η : Type}

/-- What a member has before it. -/
def station (office : Office ι η) (member : ι) : Station η :=
  ⟨office.store, office.checkpoints, office.desks member⟩

variable [DecidableEq ι]

/-- Whether a happening is not a deed of another member. -/
def Action.concerns (member : ι) : Action ι → Bool
  | .write _ => true
  | .perform other _ => other = member

/-- No pass was begun yet. -/
def start (store : MemoryStore) (checkpoints : CheckpointTable) (handlers : ι → η) : Office ι η :=
  ⟨store, checkpoints, fun member => .clean (handlers member)⟩

/-- The office after something happened. -/
def step (crew : ι → Colleague η) (office : Office ι η) : Action ι → Office ι η
  | .write call => { office with store := call.after office.store }
  | .perform member deed =>
    let station := (crew member).perform deed (office.station member)
    ⟨station.store, station.checkpoints, Function.update office.desks member station.desk⟩

/-- The office after a list of happenings. -/
def run (crew : ι → Colleague η) (office : Office ι η) : List (Action ι) → Office ι η
  | [] => office
  | action :: rest => (office.step crew action).run crew rest

/-- Every member works on its own checkpoint. -/
def Orderly (crew : ι → Colleague η) (office : Office ι η) : Prop :=
  ∀ member, (office.station member).desk.IsOf (crew member).name

variable {crew : ι → Colleague η} {office alone : Office ι η}

omit [DecidableEq ι] in
theorem orderly_start (store : MemoryStore) (checkpoints : CheckpointTable) (handlers : ι → η) :
    (start store checkpoints handlers).Orderly crew :=
  fun _ _ hphase => nomatch hphase

theorem station_perform_self (member : ι) (deed : Deed) :
    (office.step crew (.perform member deed)).station member
      = (crew member).perform deed (office.station member) := by
  simp [step, station]

theorem desk_perform_other {member other : ι} (h : member ≠ other) (deed : Deed) :
    ((office.step crew (.perform other deed)).station member).desk = (office.station member).desk := by
  simp [step, station, h]

theorem Orderly.step (orderly : office.Orderly crew) (action : Action ι) :
    (office.step crew action).Orderly crew := by
  cases action with
  | write call => exact orderly
  | perform other deed =>
    intro member
    by_cases h : member = other
    · rw [h, station_perform_self]
      exact ((crew other).perform_spares (orderly other) deed).2.1
    · rw [desk_perform_other h]
      exact orderly member

/-- What another member does changes nothing for a member. -/
theorem step_other (apart : ∀ i j, (crew i).name = (crew j).name → i = j)
    (orderly : office.Orderly crew) {action : Action ι} {member : ι}
    (h : action.concerns member = false) :
    ((office.step crew action).station member).Alike (crew member).name (office.station member) := by
  cases action with
  | write call => cases h
  | perform other deed =>
    have hne : member ≠ other := fun heq => by simp [Action.concerns, heq] at h
    obtain ⟨hstore, -, hload⟩ := (crew other).perform_spares (orderly other) deed
    exact ⟨hstore, hload _ fun hname => hne (apart _ _ hname), desk_perform_other hne deed⟩

/-- What concerns a member comes to the same for it in offices that it cannot tell apart. -/
theorem step_alike (orderly : office.Orderly crew) {action : Action ι} {member : ι}
    (h : action.concerns member = true)
    (alike : (office.station member).Alike (crew member).name (alone.station member)) :
    ((office.step crew action).station member).Alike (crew member).name
      ((alone.step crew action).station member) := by
  cases action with
  | write call => exact ⟨congrArg call.after alike.store, alike.checkpoint, alike.desk⟩
  | perform other deed =>
    have heq : other = member := by simpa [Action.concerns] using h
    rw [heq, station_perform_self, station_perform_self]
    exact (crew member).perform_alike (orderly member) alike deed

/-- A member cannot tell a run from the run in which the others do nothing. -/
theorem run_alike (apart : ∀ i j, (crew i).name = (crew j).name → i = j) (orderly : office.Orderly crew)
    {member : ι} (alike : (office.station member).Alike (crew member).name (alone.station member))
    (actions : List (Action ι)) :
    ((office.run crew actions).station member).Alike (crew member).name
      ((alone.run crew (actions.filter (·.concerns member))).station member) := by
  induction actions generalizing office alone with
  | nil => exact alike
  | cons action rest ih =>
    cases h : action.concerns member with
    | true =>
      rw [List.filter_cons_of_pos h]
      exact ih (orderly.step action) (step_alike orderly h alike)
    | false =>
      rw [List.filter_cons_of_neg (by simp [h])]
      exact ih (orderly.step action) ((step_other apart orderly h).trans alike)

/-- **Neighbours**: any number of processors with names of their own share a store in memory and a table of
checkpoints; each may read through a chain, and its handler has a state of its own. From any store and any
table on, and whatever the members do, step by step and in any order, while others write to the store: what
a member has on its desk in the end (the calls of its handler with their answers, what its passes and
resets returned, its counts and reports) and its checkpoint in the table are what they would be if the other
members had done nothing. -/
theorem unaffected_by_others (crew : ι → Colleague η)
    (apart : ∀ i j, (crew i).name = (crew j).name → i = j) (store : MemoryStore)
    (checkpoints : CheckpointTable) (handlers : ι → η) (actions : List (Action ι)) (member : ι) :
    let office := (start store checkpoints handlers).run crew actions
    let alone := (start store checkpoints handlers).run crew (actions.filter (·.concerns member))
    office.desks member = alone.desks member ∧
      office.checkpoints.load (crew member).name = alone.checkpoints.load (crew member).name ∧
      office.store = alone.store := by
  intro office alone
  have orderly : (start store checkpoints handlers).Orderly crew :=
    orderly_start store checkpoints handlers
  have alike : (office.station member).Alike (crew member).name (alone.station member) :=
    run_alike apart orderly ⟨rfl, rfl, rfl⟩ actions
  exact ⟨alike.desk, alike.checkpoint, alike.store⟩

/-- Two processors on one stream. The first commits early, and its handler cannot do "2". -/
def pair (second : Bool) : Colleague (List EventId) :=
  if second then
    ⟨⟨"q", ⟨"a"⟩, none, .afterHandling⟩, none, fun record seen => (.ok (), seen ++ [record.id])⟩
  else
    ⟨⟨"p", ⟨"a"⟩, none, .beforeHandling⟩, none, fun record seen =>
      if record.id = ⟨"2"⟩ then (.error ["no"], seen) else (.ok (), seen ++ [record.id])⟩

/-- Both make a pass over two records, step by step in turn. The first fails; the second starts over while
the first goes on, and its stream is cut in between. -/
def inTurn : List (Action Bool) :=
  [.write (.append ⟨"a"⟩ [⟨⟨"1"⟩, "t", .null, .empty⟩, ⟨⟨"2"⟩, "t", .null, .empty⟩] none default),
    .perform true .begin, .perform false .begin] ++
    (List.replicate 4 [.perform true (.advance 0), .perform false (.advance 0)]).flatten ++
    [.perform true .reset, .write (.truncate ⟨"a"⟩ ⟨1⟩ default ⟨"m"⟩)] ++
    (List.replicate 3 [.perform true (.advance 0), .perform false (.advance 0)]).flatten

/-- What each of them does can be told from the steps of that one alone. -/
theorem unaffected_by_others_sample :
    (∀ i j, (pair i).name = (pair j).name → i = j) ∧
      let office := (start .empty .empty fun _ => []).run pair inTurn
      (office.desks false).calls.map (·.1.id) = [⟨"1"⟩, ⟨"2"⟩] ∧
        (office.desks false).stats = ⟨1, 1⟩ ∧ (office.desks false).handler = [⟨"1"⟩] ∧
        office.checkpoints.load "p" = some ⟨"p", ⟨"a"⟩, ⟨1⟩⟩ ∧
        (office.desks true).stats = ⟨2, 0⟩ ∧ (office.desks true).handler = [⟨"1"⟩, ⟨"2"⟩] ∧
        office.checkpoints.load "q" = some ⟨"q", ⟨"a"⟩, ⟨1⟩⟩ := by
  have apart : ∀ i j, (pair i).name = (pair j).name → i = j := by decide
  refine ⟨apart, ?_⟩
  intro office
  obtain ⟨hdesk, hload, -⟩ := unaffected_by_others pair apart .empty .empty (fun _ => []) inTurn false
  obtain ⟨hdesk', hload', -⟩ := unaffected_by_others pair apart .empty .empty (fun _ => []) inTurn true
  refine ⟨?_, ?_, ?_, hload.trans rfl, ?_, ?_, hload'.trans rfl⟩
  · rw [hdesk]
    rfl
  · rw [hdesk]
    rfl
  · rw [hdesk]
    rfl
  · rw [hdesk']
    rfl
  · rw [hdesk']
    rfl

end Office

end EventJournal
