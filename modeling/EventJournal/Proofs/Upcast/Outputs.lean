import EventJournal.Proofs.Store.Horizon
import EventJournal.Upcast.Store

/-!
# What a reader sees of a stored record

A chain of upcasters works record by record: what it makes of a list is what it makes of each record,
one after another. So a read through a chain is told by what each stored record comes to, and a read
without a chain is a read through the chain without stages.

* `UpcastChain.made` — what a chain makes of one record.
* `UpcastChain.KeepsPlace` — every stage leaves the place of a draft alone, as editing, dropping and
  splitting do; `UpcastChain.Reshapes`, and never fails; `UpcastChain.Handles`, the same of the drafts that
  it supports.
* `read_reader` — a forward read gives, in order, what is made of the stored records beyond the
  position, as far as the filter admits it.
-/

namespace EventJournal

/-! ## Places -/

/-- Two drafts stand at the same place: editing a draft or splitting it leaves these fields alone. -/
structure Draft.SamePlace (draft source : Draft) : Prop where
  stream : draft.stream = source.stream
  version : draft.version = source.version
  sequence : draft.sequence = source.sequence
  recordedAt : draft.recordedAt = source.recordedAt

namespace Draft.SamePlace

theorem refl (draft : Draft) : draft.SamePlace draft := ⟨rfl, rfl, rfl, rfl⟩

theorem trans {a b c : Draft} (hab : a.SamePlace b) (hbc : b.SamePlace c) : a.SamePlace c :=
  ⟨hab.stream.trans hbc.stream, hab.version.trans hbc.version, hab.sequence.trans hbc.sequence,
    hab.recordedAt.trans hbc.recordedAt⟩

theorem split (draft : Draft) (index : Nat) (typeName : String) (payload : Json) :
    (draft.split index typeName payload).SamePlace draft :=
  ⟨rfl, rfl, rfl, rfl⟩

end Draft.SamePlace

/-- An upcaster that only edits, drops or splits the drafts it is given: what it gives stands where the
draft stood. -/
def Upcaster.KeepsPlace (upcaster : Upcaster) : Prop :=
  ∀ draft outputs, upcaster.upcast draft = .ok outputs → ∀ output ∈ outputs, output.SamePlace draft

/-- All stages of a chain only edit, drop or split the drafts they are given. -/
def UpcastChain.KeepsPlace (chain : UpcastChain) : Prop :=
  ∀ upcaster ∈ chain.stages, upcaster.KeepsPlace

/-- An upcaster that edits, drops or splits whatever draft it is given, and never fails. -/
def Upcaster.Reshapes (upcaster : Upcaster) : Prop :=
  ∀ draft, ∃ outputs, upcaster.upcast draft = .ok outputs ∧ ∀ output ∈ outputs, output.SamePlace draft

/-- All stages of a chain edit, drop or split whatever drafts they are given. -/
def UpcastChain.Reshapes (chain : UpcastChain) : Prop := ∀ upcaster ∈ chain.stages, upcaster.Reshapes

theorem UpcastChain.Reshapes.keepsPlace {chain : UpcastChain} (h : chain.Reshapes) :
    chain.KeepsPlace := by
  intro upcaster hupcaster draft outputs houtputs output houtput
  obtain ⟨given, hgiven, hplace⟩ := h upcaster hupcaster draft
  cases hgiven.symm.trans houtputs
  exact hplace output houtput

/-- An upcaster that edits, drops or splits every draft that it supports. What it would do with others does
not matter: it is not given them. -/
def Upcaster.Handles (upcaster : Upcaster) : Prop :=
  ∀ draft, upcaster.supports draft = true →
    ∃ outputs, upcaster.upcast draft = .ok outputs ∧ ∀ output ∈ outputs, output.SamePlace draft

/-- All stages of a chain edit, drop or split every draft that they support. -/
def UpcastChain.Handles (chain : UpcastChain) : Prop := ∀ upcaster ∈ chain.stages, upcaster.Handles

theorem UpcastChain.Reshapes.handles {chain : UpcastChain} (h : chain.Reshapes) : chain.Handles :=
  fun upcaster hupcaster draft _ => h upcaster hupcaster draft

/-! ## One record at a time -/

/-- What came out of a run; nothing when it failed. -/
def UpcastRun.given (run : UpcastRun) : List Draft := run.outcome.toOption.getD []

theorem UpcastRun.given_of_ok {run : UpcastRun} {drafts : List Draft} (h : run.outcome = .ok drafts) :
    run.given = drafts := by
  rw [given, h]
  rfl

theorem UpcastRun.outcome_eq_given {run : UpcastRun} (h : ∃ drafts, run.outcome = .ok drafts) :
    run.outcome = .ok run.given := by
  obtain ⟨drafts, hdrafts⟩ := h
  rw [given_of_ok hdrafts, hdrafts]

/-- The run of a list succeeds only if every draft's does, and gives what these give. -/
theorem UpcastRun.sequence_ok {run : Draft → UpcastRun} {drafts outputs : List Draft}
    (h : (sequence run drafts).outcome = .ok outputs) :
    outputs = drafts.flatMap (fun draft => (run draft).given) ∧
      ∀ draft ∈ drafts, (run draft).outcome = .ok (run draft).given := by
  induction drafts generalizing outputs with
  | nil =>
    cases h
    exact ⟨rfl, nofun⟩
  | cons draft rest ih =>
    rw [sequence, append] at h
    cases hfirst : (run draft).outcome with
    | error error =>
      rw [hfirst] at h
      cases h
    | ok first =>
      rw [hfirst] at h
      cases hrest : (sequence run rest).outcome with
      | error error =>
        rw [hrest] at h
        cases h
      | ok later =>
        rw [hrest] at h
        cases h
        have hgiven := given_of_ok hfirst
        obtain ⟨rfl, hall⟩ := ih hrest
        constructor
        · rw [List.flatMap_cons, hgiven]
        · intro other hother
          rcases List.mem_cons.mp hother with rfl | hother
          · rw [hfirst, hgiven]
          · exact hall other hother

/-- Drafts whose runs all succeed come through one after another. -/
theorem UpcastRun.sequence_of_all {run : Draft → UpcastRun} {drafts : List Draft}
    (all : ∀ draft ∈ drafts, (run draft).outcome = .ok (run draft).given) :
    (sequence run drafts).outcome = .ok (drafts.flatMap fun draft => (run draft).given) := by
  induction drafts with
  | nil => rfl
  | cons draft rest ih =>
    have hfirst := all draft List.mem_cons_self
    have hrest := ih fun other hother => all other (List.mem_cons_of_mem _ hother)
    rw [sequence, append, hfirst]
    dsimp only
    rw [hrest]
    rfl

namespace UpcastChain

/-- What comes out of the stages stands where the draft stood. -/
theorem samePlace_of_thread {stages : List Upcaster} (keeps : ∀ upcaster ∈ stages, upcaster.KeepsPlace)
    {draft : Draft} {outputs : List Draft} (h : (thread stages draft).outcome = .ok outputs) :
    ∀ output ∈ outputs, output.SamePlace draft := by
  induction stages generalizing draft outputs with
  | nil =>
    cases h
    intro output houtput
    rw [List.mem_singleton.mp houtput]
    exact .refl draft
  | cons upcaster rest ih =>
    have hrest : ∀ upcaster ∈ rest, upcaster.KeepsPlace :=
      fun other hother => keeps other (List.mem_cons_of_mem _ hother)
    rw [thread] at h
    split at h
    · cases hupcast : upcaster.upcast draft with
      | error error =>
        rw [hupcast] at h
        cases h
      | ok inner =>
        rw [hupcast] at h
        change (UpcastRun.sequence (thread rest) inner).outcome = .ok outputs at h
        obtain ⟨rfl, hall⟩ := UpcastRun.sequence_ok h
        intro output houtput
        -- an output of the later stages comes from one output of this stage
        obtain ⟨middle, hmiddle, houtput⟩ := List.mem_flatMap.mp houtput
        have hlater := ih hrest (hall middle hmiddle) output houtput
        have hfirst := keeps upcaster List.mem_cons_self draft inner hupcast middle hmiddle
        exact hlater.trans hfirst
    · exact ih hrest h

/-- Threading a draft comes to its end, and all that comes out stands where the draft stood. -/
theorem thread_handles {stages : List Upcaster} (handles : ∀ upcaster ∈ stages, upcaster.Handles)
    (draft : Draft) :
    ∃ outputs, (thread stages draft).outcome = .ok outputs ∧
      ∀ output ∈ outputs, output.SamePlace draft := by
  induction stages generalizing draft with
  | nil =>
    refine ⟨[draft], rfl, fun output houtput => ?_⟩
    rw [List.mem_singleton.mp houtput]
    exact .refl draft
  | cons upcaster rest ih =>
    have hrest := ih fun other hother => handles other (List.mem_cons_of_mem _ hother)
    rw [thread]
    split
    · rename_i hsupports
      obtain ⟨inner, hinner, hplace⟩ := handles upcaster List.mem_cons_self draft hsupports
      rw [hinner]
      refine ⟨_, UpcastRun.sequence_of_all fun other _ => ?_, fun output houtput => ?_⟩
      · obtain ⟨outputs, houtputs, -⟩ := hrest other
        exact UpcastRun.outcome_eq_given ⟨outputs, houtputs⟩
      · -- an output of the later stages comes from one output of this stage
        obtain ⟨middle, hmiddle, houtput⟩ := List.mem_flatMap.mp houtput
        obtain ⟨outputs, houtputs, hlater⟩ := hrest middle
        rw [UpcastRun.given_of_ok houtputs] at houtput
        exact (hlater output houtput).trans (hplace middle hmiddle)
    · exact hrest draft

/-- What a chain makes of a record; nothing if it fails on it. -/
def made (chain : UpcastChain) (record : Record) : List Record :=
  (chain.upcast (.ofRecord record)).given.map Draft.toRecord

/-- The chain without stages. -/
def identity : UpcastChain := ⟨[]⟩

theorem flatMap_made_identity (records : List Record) : records.flatMap identity.made = records :=
  List.flatMap_singleton' records

/-- A chain does not fail on a record. -/
def Accepts (chain : UpcastChain) (record : Record) : Prop :=
  ∃ outputs, (chain.upcast (.ofRecord record)).outcome = .ok outputs

/-- A chain makes of a list what it makes of its records, one after another, unless it fails on one. -/
theorem upcastRecords_ok_iff {chain : UpcastChain} {records outputs : List Record} :
    (chain.upcastRecords records).outcome = .ok outputs ↔
      outputs = records.flatMap chain.made ∧ ∀ record ∈ records, chain.Accepts record := by
  obtain ⟨stages⟩ := chain
  cases stages with
  | nil =>
    rw [show records.flatMap (made ⟨[]⟩) = records from flatMap_made_identity records]
    constructor
    · intro h
      cases h
      exact ⟨rfl, fun record _ => ⟨_, rfl⟩⟩
    · rintro ⟨rfl, -⟩
      rfl
  | cons upcaster rest =>
    have hmade : ∀ records : List Record, records.flatMap (made ⟨upcaster :: rest⟩)
        = ((records.map Draft.ofRecord).flatMap
            fun draft => (upcast ⟨upcaster :: rest⟩ draft).given).map Draft.toRecord := by
      intro records
      rw [List.flatMap_map, List.map_flatMap]
      rfl
    rw [hmade]
    show (UpcastRun.sequence _ (records.map Draft.ofRecord)).outcome.map _ = .ok outputs ↔ _
    constructor
    · intro h
      cases hrun : (UpcastRun.sequence (upcast ⟨upcaster :: rest⟩)
          (records.map Draft.ofRecord)).outcome with
      | error error =>
        rw [hrun] at h
        cases h
      | ok drafts =>
        rw [hrun] at h
        cases h
        obtain ⟨rfl, hall⟩ := UpcastRun.sequence_ok hrun
        exact ⟨rfl, fun record hrecord => ⟨_, hall _ (List.mem_map_of_mem hrecord)⟩⟩
    · rintro ⟨rfl, hall⟩
      have hrun := @UpcastRun.sequence_of_all (upcast ⟨upcaster :: rest⟩)
        (records.map Draft.ofRecord) fun draft hdraft => by
          obtain ⟨record, hrecord, rfl⟩ := List.mem_map.mp hdraft
          exact UpcastRun.outcome_eq_given (hall record hrecord)
      rw [hrun]
      rfl

theorem Handles.accepts {chain : UpcastChain} (handles : chain.Handles) (record : Record) : chain.Accepts record := by
  obtain ⟨outputs, houtputs, -⟩ := thread_handles handles (.ofRecord record)
  exact ⟨outputs, houtputs⟩

theorem Handles.upcast_eq_made {chain : UpcastChain} (handles : chain.Handles) (record : Record) :
    (chain.upcast (.ofRecord record)).outcome = .ok ((chain.made record).map Draft.ofRecord) := by
  rw [UpcastRun.outcome_eq_given (handles.accepts record), made, List.map_map]
  exact congrArg Except.ok (List.map_id _).symm

/-- What is made of a record stands where the record stands. -/
theorem Handles.samePlace {chain : UpcastChain} (handles : chain.Handles) {record output : Record}
    (h : output ∈ chain.made record) : (Draft.ofRecord output).SamePlace (.ofRecord record) := by
  obtain ⟨draft, hdraft, rfl⟩ := List.mem_map.mp h
  obtain ⟨outputs, houtputs, hplace⟩ := thread_handles handles (.ofRecord record)
  have hgiven : (chain.upcast (.ofRecord record)).given = outputs := UpcastRun.given_of_ok houtputs
  rw [hgiven] at hdraft
  exact hplace draft hdraft

theorem Handles.positionIn {chain : UpcastChain} (handles : chain.Handles) {record output : Record}
    (h : output ∈ chain.made record) (stream : StreamId) :
    output.positionIn stream = record.positionIn stream := by
  have hplace := handles.samePlace h
  have hsequence : output.sequence = record.sequence := hplace.sequence
  have hversion : output.version = record.version := hplace.version
  rw [Record.positionIn, Record.positionIn, hsequence, hversion]

/-- A chain that only reshapes upcasts all records. -/
theorem Reshapes.upcastRecords {chain : UpcastChain} (h : chain.Reshapes) (records : List Record) :
    (chain.upcastRecords records).outcome = .ok (records.flatMap chain.made) :=
  upcastRecords_ok_iff.mpr ⟨rfl, fun record _ => h.handles.accepts record⟩

/-- What a chain makes of a record stands where the record stands. -/
theorem KeepsPlace.made {chain : UpcastChain} (keeps : chain.KeepsPlace) {record output : Record}
    (h : output ∈ chain.made record) :
    output.sequence = record.sequence ∧ ∀ stream, output.positionIn stream = record.positionIn stream := by
  obtain ⟨draft, hdraft, rfl⟩ := List.mem_map.mp h
  cases hrun : (chain.upcast (.ofRecord record)).outcome with
  | error error =>
    rw [UpcastRun.given, hrun] at hdraft
    cases hdraft
  | ok drafts =>
    rw [UpcastRun.given_of_ok hrun] at hdraft
    have hplace := samePlace_of_thread keeps hrun draft hdraft
    refine ⟨hplace.sequence, fun stream => ?_⟩
    unfold Record.positionIn
    split
    · exact congrArg SequenceNumber.position hplace.sequence
    · exact congrArg StreamVersion.position hplace.version

/-- A chain that splits pairs. -/
def splitting : UpcastChain :=
  ⟨[{ name := "pairs", supports := fun draft => draft.typeName = "pair",
      upcast := fun draft => .ok [draft.split 0 "left" .null, draft.split 1 "right" .null] }]⟩

theorem splitting_reshapes : splitting.Reshapes := by
  intro upcaster hupcaster draft
  cases List.mem_singleton.mp hupcaster
  refine ⟨_, rfl, fun output houtput => ?_⟩
  rcases List.mem_cons.mp houtput with rfl | hright
  · exact .split draft 0 "left" .null
  · rw [List.mem_singleton.mp hright]
    exact .split draft 1 "right" .null

theorem splitting_keepsPlace : splitting.KeepsPlace := splitting_reshapes.keepsPlace

end UpcastChain

/-! ## Which output a record is -/

/-- How many records of its sequence number stand before a record. Among the outputs of one source this
tells which of them the record is. -/
def Record.indexAfter (record : Record) (earlier : List Record) : Nat :=
  earlier.countP fun other => other.sequence = record.sequence

theorem Record.indexAfter_append (record : Record) (earlier later : List Record) :
    record.indexAfter (earlier ++ later) = record.indexAfter earlier + record.indexAfter later :=
  List.countP_append

/-- Records of another sequence number do not count. -/
theorem Record.indexAfter_eq_zero {record : Record} {earlier : List Record}
    (h : ∀ other ∈ earlier, other.sequence ≠ record.sequence) : record.indexAfter earlier = 0 := by
  refine List.countP_eq_zero.mpr fun other hother hsame => ?_
  exact h other hother (decide_eq_true_iff.mp hsame)

/-- Records of the same sequence number all count. -/
theorem Record.indexAfter_eq_length {record : Record} {earlier : List Record}
    (h : ∀ other ∈ earlier, other.sequence = record.sequence) :
    record.indexAfter earlier = earlier.length :=
  List.countP_eq_length.mpr fun other hother => decide_eq_true_iff.mpr (h other hother)

/-- In what the sources show one after another, the index of a record tells which output of its source
it is. -/
theorem output_of_flatMap {outputs : Record → List Record} {sources : List Record}
    (placed : ∀ source ∈ sources, ∀ output ∈ outputs source, output.sequence = source.sequence)
    (apart : sources.Pairwise fun a b => a.sequence ≠ b.sequence) {place : Nat} {record : Record}
    (h : (sources.flatMap outputs)[place]? = some record) :
    ∃ source ∈ sources,
      (outputs source)[record.indexAfter ((sources.flatMap outputs).take place)]? = some record := by
  induction sources generalizing place with
  | nil => cases h
  | cons source later ih =>
    obtain ⟨hsource, hlater⟩ := List.pairwise_cons.mp apart
    have hown := placed source List.mem_cons_self
    have hothers : ∀ other ∈ later, ∀ output ∈ outputs other, output.sequence = other.sequence :=
      fun other hother => placed other (List.mem_cons_of_mem _ hother)
    rw [List.flatMap_cons] at h ⊢
    by_cases hplace : place < (outputs source).length
    · -- the record is an output of the first source, and all before it are too
      rw [List.getElem?_append_left hplace] at h
      have hsequence := hown record (List.mem_of_getElem? h)
      rw [List.take_append_of_le_length (Nat.le_of_lt hplace), Record.indexAfter_eq_length,
        List.length_take_of_le (Nat.le_of_lt hplace)]
      · exact ⟨source, List.mem_cons_self, h⟩
      · intro other hother
        rw [hown other (List.mem_of_mem_take hother), hsequence]
    · have hle : (outputs source).length ≤ place := Nat.le_of_not_lt hplace
      rw [List.getElem?_append_right hle] at h
      obtain ⟨other, hother, hindex⟩ := ih hothers hlater h
      refine ⟨other, List.mem_cons_of_mem _ hother, ?_⟩
      have hsequence := hothers other hother record (List.mem_of_getElem? hindex)
      have hzero : record.indexAfter (outputs source) = 0 := by
        refine Record.indexAfter_eq_zero fun output houtput => ?_
        rw [hown output houtput, hsequence]
        exact hsource other hother
      rw [List.take_append, List.take_of_length_le hle, Record.indexAfter_append, hzero, Nat.zero_add]
      exact hindex

/-! ## Reads through a chain -/

/-- What a processor of a filter sees of a stored record through a chain. -/
def UpcastChain.shown (chain : UpcastChain) (filter : Option TypeFilter) (record : Record) :
    List Record :=
  (chain.made record).filter fun output => admitsType filter output.typeName

namespace MemoryStore

/-- The records that lie beyond a position. -/
def beyond (store : MemoryStore) (stream : StreamId) (position : Position) : List Record :=
  (store.readable stream).filter fun record => position < record.positionIn stream

theorem mem_beyond {store : MemoryStore} {stream : StreamId} {position : Position} {record : Record} :
    record ∈ store.beyond stream position ↔
      record ∈ store.readable stream ∧ position < record.positionIn stream := by
  rw [beyond, List.mem_filter, decide_eq_true_iff]

/-- Nothing lies beyond a position of a stream that does not exist. -/
theorem Sound.beyond_of_missing {store : MemoryStore} (sound : Sound store) {stream : StreamId}
    (h : (stream.isGlobal || (store.version? stream).isSome) = false) (position : Position) :
    store.beyond stream position = [] := by
  rw [beyond, sound.readable_of_missing h]
  rfl

/-- The operations of the store, its reads through a chain if there is one. -/
def reader (chain : Option UpcastChain) (now : Timestamp) (fresh : EventId) : Store MemoryStore :=
  match chain with
  | none => MemoryStore.store now fresh
  | some chain => (MemoryStore.store now fresh).upcasting chain

/-- A forward read of the store itself. -/
theorem read_beyond {store : MemoryStore} {stream : StreamId} {position : Position}
    {filter : Option TypeFilter} {slice : Slice}
    (h : store.read stream { ReadOptions.forward with position, filter } = .ok slice) :
    slice.records = (store.beyond stream position).filter fun record =>
      admitsType filter record.typeName := by
  unfold read at h
  split at h
  · cases h
    show List.filter _ _ = List.filter _ (List.filter _ _)
    rw [List.filter_filter]
    refine List.filter_congr fun record _ => ?_
    exact Bool.and_comm _ _
  · cases h

/-- A read never changes the store. -/
theorem reader_read_state (chain : Option UpcastChain) (now : Timestamp) (fresh : EventId)
    (stream : StreamId) (options : ReadOptions) (store : MemoryStore) :
    ((reader chain now fresh).read stream options store).state = store := by
  cases chain with
  | none => rfl
  | some chain =>
    show (Answer.andThen ⟨store.read stream { options with filter := none }, store, []⟩ _).state
      = store
    unfold Answer.andThen
    split
    · rfl
    · rfl

/-- A forward read gives what each record beyond the position shows, in order. -/
theorem read_reader {chain : Option UpcastChain} {now : Timestamp} {fresh : EventId}
    {stream : StreamId} {position : Position} {filter : Option TypeFilter} {store : MemoryStore}
    {slice : Slice}
    (h : ((reader chain now fresh).read stream
      { ReadOptions.forward with position, filter } store).outcome = .ok slice) :
    slice.records = (store.beyond stream position).flatMap
      ((chain.getD .identity).shown filter) := by
  cases chain with
  | none =>
    rw [read_beyond h]
    show _ = List.flatMap (fun record => List.filter _ (UpcastChain.identity.made record)) _
    rw [← List.filter_flatMap, UpcastChain.flatMap_made_identity]
  | some chain =>
    change (Answer.andThen ⟨store.read stream
      { ReadOptions.forward with position, filter := none }, store, []⟩ _).outcome = .ok slice at h
    cases hread : store.read stream { ReadOptions.forward with position, filter := none } with
    | error error =>
      rw [hread] at h
      cases h
    | ok inner =>
      have hinner : inner.records = store.beyond stream position := by
        rw [read_beyond hread]
        exact List.filter_eq_self.mpr fun _ _ => rfl
      rw [hread] at h
      simp only [Answer.andThen, UpcastChain.upcastSlice] at h
      cases hrun : (chain.upcastRecords inner.records).outcome with
      | error error =>
        rw [hrun] at h
        cases h
      | ok outputs =>
        rw [hrun] at h
        cases h
        show List.filter _ outputs = _
        rw [(UpcastChain.upcastRecords_ok_iff.mp hrun).1, hinner, List.filter_flatMap]
        rfl

/-- Through a chain that only reshapes, a stream that exists can be read. -/
theorem reader_of_known {chain : Option UpcastChain} (reshapes : (chain.getD .identity).Reshapes)
    (now : Timestamp) (fresh : EventId) {stream : StreamId} (options : ReadOptions)
    {store : MemoryStore} (known : (stream.isGlobal || (store.version? stream).isSome) = true) :
    ∃ slice, ((reader chain now fresh).read stream options store).outcome = .ok slice := by
  cases chain with
  | none => exact ⟨_, if_pos known⟩
  | some chain =>
    show ∃ slice, (Answer.andThen ⟨store.read stream { options with filter := none }, store, []⟩
      (chain.upcastSlice stream options.filter)).outcome = .ok slice
    have hread : store.read stream { options with filter := none } = .ok _ := if_pos known
    have houtputs := UpcastChain.Reshapes.upcastRecords reshapes
    simp only [hread, Answer.andThen, UpcastChain.upcastSlice, Option.getD_some] at houtputs ⊢
    rw [houtputs]
    exact ⟨_, rfl⟩

/-- A stream that does not exist cannot be read. -/
theorem reader_of_missing (chain : Option UpcastChain) (now : Timestamp) (fresh : EventId)
    {stream : StreamId} (options : ReadOptions) {store : MemoryStore}
    (missing : (stream.isGlobal || (store.version? stream).isSome) = false) :
    ((reader chain now fresh).read stream options store).outcome = .error (.streamNotFound stream) := by
  have hmissing := Bool.eq_false_iff.mp missing
  cases chain with
  | none => exact if_neg hmissing
  | some chain =>
    show (Answer.andThen ⟨store.read stream { options with filter := none }, store, []⟩
      (chain.upcastSlice stream options.filter)).outcome = .error (.streamNotFound stream)
    have hread : store.read stream { options with filter := none } = .error (.streamNotFound stream) :=
      if_neg hmissing
    rw [hread]
    rfl

end MemoryStore

end EventJournal
