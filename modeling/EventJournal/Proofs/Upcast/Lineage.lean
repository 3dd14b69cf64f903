import EventJournal.Proofs.Upcast.Stages
import Mathlib.Data.List.Nodup

/-!
# Ids along a lineage

Each part of a split has an id of its own: that of its source, a dash and its index in decimal. A part may
be split again by a later stage, so an output has a lineage, the indices of the splits that it went through,
and its id spells this lineage behind the id of the stored record.

Lineages have any depth and indices any number of digits, and the stored id may itself end in dashes and
digits. Still a text behind the stored id can be read in one way only, since digits end where a dash
begins.

* `EventId.along_injective` — different lineages give different ids.
* `Draft.Offspring` — what a stage may make of a draft: nothing, one draft of the same id, or parts at
  different indices.
* `UpcastChain.Descends` — how an output comes from a draft, with its lineage.
* `UpcastChain.ids_spell_lineages` — the main statement.
-/

namespace EventJournal

/-! ## Reading a lineage -/

/-- A lineage as it is written behind an id. -/
def EventId.trail (lineage : List Nat) : String :=
  String.join (lineage.map fun index => "-" ++ toString index)

/-- The id of what was split off at these indices, one split after another. -/
def EventId.along (id : EventId) (lineage : List Nat) : EventId := lineage.foldl EventId.derived id

namespace EventId

theorem trail_cons (index : Nat) (rest : List Nat) :
    trail (index :: rest) = "-" ++ toString index ++ trail rest := by
  simp [trail, String.join_cons]

theorem name_along (id : EventId) (lineage : List Nat) :
    (id.along lineage).name = id.name ++ trail lineage := by
  induction lineage generalizing id with
  | nil => simp [along, trail]
  | cons index rest ih =>
    show ((id.derived index).along rest).name = _
    rw [ih, trail_cons, derived]
    simp only [String.append_assoc]

/-- Digits end where something else begins. -/
theorem digits_append_inj {m n : Nat} {a b : List Char} (ha : ∀ c ∈ a.head?, c.isDigit = false)
    (hb : ∀ c ∈ b.head?, c.isDigit = false)
    (h : Nat.toDigits 10 m ++ a = Nat.toDigits 10 n ++ b) : m = n ∧ a = b := by
  have front (k : Nat) {rest : List Char} (hrest : ∀ c ∈ rest.head?, c.isDigit = false) :
      (Nat.toDigits 10 k ++ rest).takeWhile Char.isDigit = Nat.toDigits 10 k := by
    rw [List.takeWhile_append_of_pos fun c hc => Nat.isDigit_of_mem_toDigits (by decide) (by decide) hc]
    cases rest with
    | nil => simp
    | cons c rest => simp [hrest c rfl]
  have hdigits : Nat.toDigits 10 m = Nat.toDigits 10 n := by
    rw [← front m ha, h, front n hb]
  have hmn : m = n := by
    rw [← @Nat.ofDigitChars_ten_toDigits m, hdigits, Nat.ofDigitChars_ten_toDigits]
  rw [hdigits] at h
  exact ⟨hmn, List.append_cancel_left h⟩

theorem toList_trail_cons (index : Nat) (rest : List Nat) :
    (trail (index :: rest)).toList = '-' :: (Nat.toDigits 10 index ++ (trail rest).toList) := by
  rw [trail_cons]
  simp [Nat.toList_repr]

/-- What follows an index begins with a dash, if there is anything. -/
theorem trail_head (lineage : List Nat) : ∀ c ∈ (trail lineage).toList.head?, c.isDigit = false := by
  cases lineage with
  | nil => simp [trail]
  | cons index rest =>
    rw [toList_trail_cons]
    rintro c ⟨⟩
    rfl

theorem trail_injective {one two : List Nat} (h : (trail one).toList = (trail two).toList) :
    one = two := by
  induction one generalizing two with
  | nil =>
    cases two with
    | nil => rfl
    | cons index rest => simp [trail] at h
  | cons index rest ih =>
    cases two with
    | nil => simp [trail] at h
    | cons other rest' =>
      rw [toList_trail_cons, toList_trail_cons] at h
      obtain ⟨rfl, hrest⟩ := digits_append_inj (trail_head rest) (trail_head rest') (List.cons.inj h).2
      rw [ih hrest]

/-- Different lineages give different ids. -/
theorem along_injective (id : EventId) : Function.Injective id.along := by
  intro one two h
  have hname := congrArg (·.name.toList) h
  simp only [name_along, String.toList_append] at hname
  exact trail_injective (List.append_cancel_left hname)

end EventId

/-! ## What a stage makes of a draft -/

/-- What a stage may make of a draft: nothing, one draft of the same id, or parts split off at different
indices, which may be edited further. -/
inductive Draft.Offspring (draft : Draft) : List Draft → Prop where
  | dropped : draft.Offspring []
  | edited {output : Draft} (same : output.id = draft.id) : draft.Offspring [output]
  | split {parts : List Draft} {indices : List Nat} (distinct : indices.Nodup)
      (ids : parts.map (·.id) = indices.map draft.id.derived) : draft.Offspring parts

/-- An upcaster drops, edits or splits every draft that it supports. -/
def Upcaster.Branches (upcaster : Upcaster) : Prop :=
  ∀ draft, upcaster.supports draft = true →
    ∃ outputs, upcaster.upcast draft = .ok outputs ∧ draft.Offspring outputs

namespace UpcastChain

open UpcastRun (Gives)

/-- An output comes from a draft through stages; its lineage is the indices of the splits on its way. -/
inductive Descends : List Upcaster → Draft → List Nat → Draft → Prop where
  | arrived {draft : Draft} : Descends [] draft [] draft
  | unsupported {upcaster : Upcaster} {rest : List Upcaster} {draft output : Draft}
      {lineage : List Nat} (passed : upcaster.supports draft = false)
      (onward : Descends rest draft lineage output) :
      Descends (upcaster :: rest) draft lineage output
  | edited {upcaster : Upcaster} {rest : List Upcaster} {draft next output : Draft}
      {lineage : List Nat} (supported : upcaster.supports draft = true)
      (made : upcaster.upcast draft = .ok [next]) (same : next.id = draft.id)
      (onward : Descends rest next lineage output) :
      Descends (upcaster :: rest) draft lineage output
  | split {upcaster : Upcaster} {rest : List Upcaster} {draft part output : Draft}
      {parts : List Draft} {index : Nat} {lineage : List Nat}
      (supported : upcaster.supports draft = true) (made : upcaster.upcast draft = .ok parts)
      (mem : part ∈ parts) (derived : part.id = draft.id.derived index)
      (onward : Descends rest part lineage output) :
      Descends (upcaster :: rest) draft (index :: lineage) output

/-- An output's id is that of the draft along its lineage. -/
theorem Descends.id {stages : List Upcaster} {draft output : Draft} {lineage : List Nat}
    (h : Descends stages draft lineage output) : output.id = draft.id.along lineage := by
  induction h with
  | arrived => rfl
  | unsupported passed onward ih => exact ih
  | edited supported made same onward ih => rw [ih, same]
  | split supported made mem derived onward ih =>
    rw [ih, derived]
    rfl

/-- The outputs of a draft, each with its lineage; no two have the same. -/
structure Lineages (stages : List Upcaster) (draft : Draft) (lineages : List (List Nat))
    (outputs : List Draft) : Prop where
  descend : List.Forall₂ (Descends stages draft) lineages outputs
  distinct : lineages.Nodup

variable {upcaster : Upcaster} {rest : List Upcaster} {draft : Draft}

/-- The parts of a split go on under different indices, and so do the outputs of each part. -/
theorem lineages_split {parts : List Draft} (supported : upcaster.supports draft = true)
    (made : upcaster.upcast draft = .ok parts)
    (onward : ∀ part, ∃ outputs lineages,
      (thread rest part).outcome = .ok outputs ∧ Lineages rest part lineages outputs)
    {chosen : List Draft} (sub : ∀ part ∈ chosen, part ∈ parts) {indices : List Nat}
    (distinct : indices.Nodup) (ids : chosen.map (·.id) = indices.map draft.id.derived) :
    ∃ outputs lineages, Gives (thread rest) chosen outputs ∧
      Lineages (upcaster :: rest) draft lineages outputs ∧
      ∀ lineage ∈ lineages, ∃ index ∈ indices, lineage.head? = some index := by
  induction chosen generalizing indices with
  | nil => exact ⟨[], [], UpcastRun.gives_nil.mpr rfl, ⟨.nil, .nil⟩, by simp⟩
  | cons part more ih =>
    cases indices with
    | nil => cases ids
    | cons index others =>
      obtain ⟨hid, hids⟩ := List.cons.inj ids
      obtain ⟨hindex, hothers⟩ := List.nodup_cons.mp distinct
      obtain ⟨outputs, lineages, hthread, hlineages⟩ := onward part
      obtain ⟨outputs', lineages', hgives, hlineages', hheads⟩ :=
        ih (fun part hpart => sub part (List.mem_cons_of_mem _ hpart)) hothers hids
      refine ⟨outputs ++ outputs', lineages.map (index :: ·) ++ lineages',
        UpcastRun.gives_cons.mpr ⟨outputs, outputs', hthread, hgives, rfl⟩, ⟨?_, ?_⟩, ?_⟩
      · refine List.rel_append ?_ hlineages'.descend
        rw [List.forall₂_map_left_iff]
        exact hlineages.descend.imp fun lineage output h =>
          .split supported made (sub part List.mem_cons_self) hid h
      · -- the first index tells the outputs of this part from those of the others
        refine List.Nodup.append (hlineages.distinct.map List.cons_injective) hlineages'.distinct ?_
        intro lineage hone htwo
        obtain ⟨tail, -, rfl⟩ := List.mem_map.mp hone
        obtain ⟨other, hother, hhead⟩ := hheads _ htwo
        cases hhead
        exact hindex hother
      · intro lineage hlineage
        rcases List.mem_append.mp hlineage with hone | htwo
        · obtain ⟨tail, -, rfl⟩ := List.mem_map.mp hone
          exact ⟨index, List.mem_cons_self, rfl⟩
        · obtain ⟨other, hother, hhead⟩ := hheads _ htwo
          exact ⟨other, List.mem_cons_of_mem _ hother, hhead⟩

/-- Threading a draft comes to its end, and its outputs have different lineages. -/
theorem thread_lineages {stages : List Upcaster} (branches : ∀ upcaster ∈ stages, upcaster.Branches)
    (draft : Draft) :
    ∃ outputs lineages, (thread stages draft).outcome = .ok outputs ∧
      Lineages stages draft lineages outputs := by
  induction stages generalizing draft with
  | nil => exact ⟨[draft], [[]], rfl, .cons .arrived .nil, List.nodup_singleton _⟩
  | cons upcaster rest ih =>
    have onward (draft : Draft) : ∃ outputs lineages, (thread rest draft).outcome = .ok outputs ∧
        Lineages rest draft lineages outputs :=
      ih (fun other hother => branches other (List.mem_cons_of_mem _ hother)) draft
    cases hsupports : upcaster.supports draft with
    | false =>
      obtain ⟨outputs, lineages, hthread, hlineages⟩ := onward draft
      have hpassed : thread (upcaster :: rest) draft = thread rest draft := by
        rw [thread, hsupports]
        rfl
      exact ⟨outputs, lineages, hpassed ▸ hthread,
        hlineages.descend.imp fun _ _ h => .unsupported hsupports h, hlineages.distinct⟩
    | true =>
      obtain ⟨inner, hmade, hoffspring⟩ := branches upcaster List.mem_cons_self draft hsupports
      have hthread {outputs : List Draft} (h : Gives (thread rest) inner outputs) :
          (thread (upcaster :: rest) draft).outcome = .ok outputs := by
        rw [thread, if_pos hsupports, hmade]
        exact h
      cases hoffspring with
      | dropped => exact ⟨[], [], hthread (UpcastRun.gives_nil.mpr rfl), .nil, .nil⟩
      | @edited next same =>
        obtain ⟨outputs, lineages, hnext, hlineages⟩ := onward next
        exact ⟨outputs, lineages, hthread (UpcastRun.gives_singleton.mpr hnext),
          hlineages.descend.imp fun _ _ h => .edited hsupports hmade same h, hlineages.distinct⟩
      | split distinct ids =>
        obtain ⟨outputs, lineages, hgives, hlineages, -⟩ :=
          lineages_split hsupports hmade onward (fun _ hpart => hpart) distinct ids
        exact ⟨outputs, lineages, hthread hgives, hlineages⟩

theorem ids_eq {stages : List Upcaster} {draft : Draft} {lineages : List (List Nat)}
    {outputs : List Draft} (h : List.Forall₂ (Descends stages draft) lineages outputs) :
    lineages.map draft.id.along = outputs.map (·.id) := by
  rw [← List.forall₂_eq_eq_eq, List.forall₂_map_left_iff, List.forall₂_map_right_iff]
  exact h.imp fun _ _ h => h.id.symm

/-- **Lineages**: a record is upcast through a chain, of any length, each of whose stages drops a draft it
supports, edits it and keeps its id, or splits it at different indices. No upcaster fails; each output comes
from the record along a lineage, and its id is the id of the record followed by a dash and an index for each
split on the way. The lineages are different, and so are the ids of the outputs, whatever the record's own
id is. -/
theorem ids_spell_lineages (chain : UpcastChain) (branches : ∀ upcaster ∈ chain.stages, upcaster.Branches)
    (record : Record) :
    ∃ outputs lineages, (chain.upcastRecords [record]).outcome = .ok outputs ∧
      List.Forall₂ (fun lineage output =>
          Descends chain.stages (.ofRecord record) lineage (.ofRecord output) ∧
            output.id.name = record.id.name ++ String.join (lineage.map fun i => "-" ++ toString i))
        lineages outputs ∧
      lineages.Nodup ∧ (outputs.map (·.id)).Nodup := by
  obtain ⟨drafts, lineages, hthread, hdescend, hdistinct⟩ :=
    thread_lineages branches (.ofRecord record)
  refine ⟨drafts.map Draft.toRecord, lineages, ?_, ?_, hdistinct, ?_⟩
  · rw [upcastRecords_gives, map_ofRecord_toRecord]
    exact UpcastRun.gives_singleton.mpr hthread
  · rw [List.forall₂_map_right_iff]
    refine hdescend.imp fun lineage draft h => ⟨h, ?_⟩
    show draft.id.name = _
    rw [h.id, EventId.name_along]
    rfl
  · rw [List.map_map]
    show (drafts.map (·.id)).Nodup
    rw [← ids_eq hdescend]
    exact hdistinct.map record.id.along_injective

/-- Two stages: one splits "wide" at 1 and 10, the other splits "narrow" at 0 and drops "old". -/
def branching : UpcastChain :=
  ⟨[{ name := "wide", supports := fun draft => draft.typeName = "wide",
      upcast := fun draft => .ok [draft.split 1 "narrow" .null, draft.split 10 "new" .null] },
    { name := "narrow", supports := fun draft => draft.typeName = "narrow",
      upcast := fun draft => .ok [draft.split 0 "new" .null, draft.split 11 "new" .null] },
    { name := "old", supports := fun draft => draft.typeName = "old", upcast := fun _ => .ok [] },
    { name := "new", supports := fun _ => true,
      upcast := fun draft => .ok [{ draft with typeName := "newer" }] }]⟩

theorem branching_branches : ∀ upcaster ∈ branching.stages, upcaster.Branches := by
  intro upcaster hupcaster draft _
  simp only [branching, List.mem_cons, List.not_mem_nil, or_false] at hupcaster
  rcases hupcaster with rfl | rfl | rfl | rfl
  · have distinct : [1, 10].Nodup := by decide
    exact ⟨_, rfl, .split distinct rfl⟩
  · have distinct : [0, 11].Nodup := by decide
    exact ⟨_, rfl, .split distinct rfl⟩
  · exact ⟨_, rfl, .dropped⟩
  · exact ⟨_, rfl, .edited rfl⟩

/-- An id that looks like that of a part. -/
def suffixed : Record := { (default : Record) with event := ⟨⟨"e-1"⟩, "wide", .null, .empty⟩ }

theorem ids_spell_lineages_sample :
    (∀ upcaster ∈ branching.stages, upcaster.Branches) ∧
      ∃ outputs, (branching.upcastRecords [suffixed]).outcome = .ok outputs ∧
        outputs.map (·.id.name) = ["e-1-1-0", "e-1-1-11", "e-1-10"] ∧
        (outputs.map (·.id)).Nodup := by
  refine ⟨branching_branches, ?_⟩
  obtain ⟨outputs, lineages, houtcome, -, -, hdistinct⟩ :=
    ids_spell_lineages branching branching_branches suffixed
  refine ⟨outputs, houtcome, ?_, hdistinct⟩
  cases houtcome
  rfl

end UpcastChain

end EventJournal
