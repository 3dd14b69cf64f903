import EventJournal.Upcast.Chain

/-!
# Depth first and stage by stage

A chain threads a record depth first: an output of a stage goes through all later stages before the next
output is looked at. As long as no upcaster fails this cannot be told from running one stage after another
on the whole list, so a chain may be cut anywhere into a front and a back. When one fails, the order shows:
the failure reported is the first one in depth-first order.

* `UpcastRun.Gives` — what comes out of a list of drafts when nothing fails; `UpcastRun.gives_comp`, two
  ways of threading compose.
* `thread_append_ok_iff`, `stageByStage_ok_iff` — a cut chain, and a chain stage by stage.
* `expansion` — the calls that a draft comes to, depth first; `traces_thread`, a run makes them up to the
  first that fails, and ends with the failure of that one.
* `upcast_stage_by_stage` — the main statement.
-/

namespace EventJournal

/-- How a call fails, if it does. -/
def UpcastCall.error? (call : UpcastCall) : Option StoreError :=
  match call.upcaster.upcast call.draft with
  | .error error => some error
  | .ok _ => none

namespace UpcastRun

/-! ## What comes out -/

/-- Threading drafts one after another gives some drafts: no call fails, and these come out. -/
def Gives (run : Draft → UpcastRun) (drafts outputs : List Draft) : Prop :=
  (sequence run drafts).outcome = .ok outputs

section

variable {run : Draft → UpcastRun} {draft : Draft} {drafts outputs : List Draft}

theorem append_ok_iff {first second : UpcastRun} :
    (first.append second).outcome = .ok outputs ↔
      ∃ earlier later, first.outcome = .ok earlier ∧ second.outcome = .ok later ∧
        outputs = earlier ++ later := by
  unfold append
  cases first.outcome with
  | error error => simp
  | ok earlier =>
    cases second.outcome with
    | error error => simp [Except.map]
    | ok later => simp [Except.map, eq_comm]

theorem gives_nil : Gives run [] outputs ↔ outputs = [] := by
  constructor
  · intro h
    cases h
    rfl
  · rintro rfl
    rfl

theorem gives_cons {rest : List Draft} :
    Gives run (draft :: rest) outputs ↔
      ∃ earlier later, (run draft).outcome = .ok earlier ∧ Gives run rest later ∧
        outputs = earlier ++ later :=
  append_ok_iff

theorem gives_append {front back : List Draft} :
    Gives run (front ++ back) outputs ↔
      ∃ earlier later, Gives run front earlier ∧ Gives run back later ∧
        outputs = earlier ++ later := by
  rw [Gives, sequence_append]
  exact append_ok_iff

theorem gives_singleton : Gives run [draft] outputs ↔ (run draft).outcome = .ok outputs := by
  rw [gives_cons]
  constructor
  · rintro ⟨earlier, later, hearlier, hlater, rfl⟩
    rw [gives_nil.mp hlater, List.append_nil]
    exact hearlier
  · intro h
    exact ⟨outputs, [], h, gives_nil.mpr rfl, (List.append_nil outputs).symm⟩

/-- When each draft may be threaded in two steps, so may a list: all through the first step, and what
comes out of it through the second. -/
theorem gives_comp {whole front back : Draft → UpcastRun}
    (step : ∀ draft outputs, (whole draft).outcome = .ok outputs ↔
      ∃ middle, (front draft).outcome = .ok middle ∧ Gives back middle outputs) :
    Gives whole drafts outputs ↔ ∃ middle, Gives front drafts middle ∧ Gives back middle outputs := by
  induction drafts generalizing outputs with
  | nil =>
    constructor
    · intro h
      exact ⟨[], gives_nil.mpr rfl, h⟩
    · rintro ⟨middle, hmiddle, houtputs⟩
      rw [gives_nil.mp hmiddle] at houtputs
      exact houtputs
  | cons draft rest ih =>
    rw [gives_cons]
    constructor
    · rintro ⟨earlier, later, hearlier, hlater, rfl⟩
      obtain ⟨middle, hfront, hback⟩ := (step draft earlier).mp hearlier
      obtain ⟨middle', hfront', hback'⟩ := ih.mp hlater
      refine ⟨middle ++ middle', gives_cons.mpr ⟨middle, middle', hfront, hfront', rfl⟩, ?_⟩
      exact gives_append.mpr ⟨earlier, later, hback, hback', rfl⟩
    · rintro ⟨middles, hfront, hback⟩
      -- what the first step makes of the list is cut where its part of the first draft ends
      obtain ⟨middle, middle', hmiddle, hmiddle', rfl⟩ := gives_cons.mp hfront
      obtain ⟨earlier, later, hearlier, hlater, rfl⟩ := gives_append.mp hback
      exact ⟨earlier, later, (step draft earlier).mpr ⟨middle, hmiddle, hearlier⟩,
        ih.mpr ⟨middle', hmiddle', hlater⟩, rfl⟩

end

/-! ## What fails -/

/-- The calls up to the first that fails, that one included. -/
def untilFailure : List UpcastCall → List UpcastCall
  | [] => []
  | call :: rest =>
    match call.error? with
    | some _ => [call]
    | none => call :: untilFailure rest

/-- What follows a failure does not matter. -/
theorem untilFailure_append_of_some {earlier : List UpcastCall} {error : StoreError}
    (h : earlier.findSome? UpcastCall.error? = some error) (later : List UpcastCall) :
    untilFailure (earlier ++ later) = untilFailure earlier := by
  induction earlier with
  | nil => cases h
  | cons call rest ih =>
    rw [List.findSome?_cons] at h
    cases hcall : call.error? with
    | some first => simp [untilFailure, hcall]
    | none =>
      rw [hcall] at h
      simp [untilFailure, hcall, ih h]

/-- Calls of which none fails are all made. -/
theorem untilFailure_append_of_none {earlier : List UpcastCall}
    (h : earlier.findSome? UpcastCall.error? = none) (later : List UpcastCall) :
    untilFailure (earlier ++ later) = earlier ++ untilFailure later := by
  induction earlier with
  | nil => rfl
  | cons call rest ih =>
    rw [List.findSome?_cons] at h
    cases hcall : call.error? with
    | some first =>
      rw [hcall] at h
      cases h
    | none =>
      rw [hcall] at h
      simp [untilFailure, hcall, ih h]

theorem untilFailure_of_none {calls : List UpcastCall}
    (h : calls.findSome? UpcastCall.error? = none) : untilFailure calls = calls := by
  have hall := untilFailure_append_of_none h []
  rw [List.append_nil] at hall
  exact hall.trans (List.append_nil calls)

/-- A run goes through a list of calls: it makes them up to the first that fails, and fails as this one
does. -/
structure Traces (run : UpcastRun) (calls : List UpcastCall) : Prop where
  made : run.calls = untilFailure calls
  fails : ∀ error, run.outcome = .error error ↔ calls.findSome? UpcastCall.error? = some error

namespace Traces

variable {run first second : UpcastRun} {calls earlier later : List UpcastCall}

/-- A run succeeds when none of its calls fails. -/
theorem none_of_ok (h : run.Traces calls) {outputs : List Draft} (hok : run.outcome = .ok outputs) :
    calls.findSome? UpcastCall.error? = none := by
  cases hfind : calls.findSome? UpcastCall.error? with
  | none => rfl
  | some error =>
    rw [(h.fails error).mpr hfind] at hok
    cases hok

theorem pure (drafts : List Draft) : (UpcastRun.pure drafts).Traces [] where
  made := rfl
  fails error := by simp [UpcastRun.pure]

theorem append (h : first.Traces earlier) (h' : second.Traces later) :
    (first.append second).Traces (earlier ++ later) := by
  unfold UpcastRun.append
  cases hfirst : first.outcome with
  | error error =>
    -- nothing follows a failure, in the run and in the calls
    have hfails := (h.fails error).mp hfirst
    constructor
    · show first.calls = _
      rw [untilFailure_append_of_some hfails, h.made]
    · intro other
      rw [List.findSome?_append, hfails]
      simp
  | ok drafts =>
    have hnone := h.none_of_ok hfirst
    constructor
    · show first.calls ++ second.calls = _
      rw [untilFailure_append_of_none hnone, h.made, h'.made, untilFailure_of_none hnone]
    · intro error
      rw [List.findSome?_append, hnone, Option.none_or, ← h'.fails error]
      cases second.outcome <;> simp [Except.map]

theorem sequence {run : Draft → UpcastRun} {calls : Draft → List UpcastCall} {drafts : List Draft}
    (h : ∀ draft ∈ drafts, (run draft).Traces (calls draft)) :
    (UpcastRun.sequence run drafts).Traces (drafts.flatMap calls) := by
  induction drafts with
  | nil => exact pure []
  | cons draft rest ih =>
    have hrest := ih fun other hother => h other (List.mem_cons_of_mem _ hother)
    exact (h draft List.mem_cons_self).append hrest

/-- A call that succeeds, and a run after it. -/
theorem after (h : run.Traces calls) {call : UpcastCall} (succeeds : call.error? = none) :
    (run.after call).Traces (call :: calls) where
  made := by
    show call :: run.calls = _
    rw [untilFailure, succeeds, h.made]
  fails error := by
    rw [List.findSome?_cons, succeeds]
    exact h.fails error

end Traces

end UpcastRun

namespace UpcastChain

open UpcastRun (Gives Traces)

/-! ## Cutting a chain -/

section

variable {upcaster : Upcaster} {stages front back : List Upcaster} {draft : Draft}
  {drafts outputs : List Draft}

theorem gives_thread_nil : Gives (thread []) drafts outputs ↔ outputs = drafts := by
  induction drafts generalizing outputs with
  | nil => exact UpcastRun.gives_nil
  | cons draft rest ih =>
    rw [UpcastRun.gives_cons]
    constructor
    · rintro ⟨earlier, later, hearlier, hlater, rfl⟩
      cases hearlier
      rw [ih.mp hlater]
      rfl
    · rintro rfl
      exact ⟨[draft], rest, rfl, ih.mpr rfl, rfl⟩

/-- Threading a draft through a chain is threading it through the front, and what comes out through the
back. -/
theorem thread_append_ok_iff :
    (thread (front ++ back) draft).outcome = .ok outputs ↔
      ∃ middle, (thread front draft).outcome = .ok middle ∧ Gives (thread back) middle outputs := by
  induction front generalizing draft outputs with
  | nil =>
    constructor
    · intro h
      exact ⟨[draft], rfl, UpcastRun.gives_singleton.mpr h⟩
    · rintro ⟨middle, hmiddle, houtputs⟩
      cases hmiddle
      exact UpcastRun.gives_singleton.mp houtputs
  | cons upcaster rest ih =>
    simp only [List.cons_append, thread]
    by_cases hsupports : upcaster.supports draft = true
    · rw [if_pos hsupports, if_pos hsupports]
      cases upcaster.upcast draft with
      | error error => simp
      | ok inner =>
        -- the outputs of the stage go through the rest as a list
        exact UpcastRun.gives_comp fun draft outputs => ih
    · rw [if_neg hsupports, if_neg hsupports]
      exact ih

/-! ## Stage by stage -/

theorem thread_singleton : (thread [upcaster] draft).outcome = stageOne upcaster draft := by
  unfold stageOne
  simp only [thread]
  by_cases hsupports : upcaster.supports draft = true
  · rw [if_pos hsupports, if_pos hsupports]
    cases upcaster.upcast draft with
    | error error => rfl
    | ok inner =>
      show (UpcastRun.sequence (thread []) inner).outcome = .ok inner
      exact gives_thread_nil.mpr rfl
  · rw [if_neg hsupports, if_neg hsupports]
    rfl

theorem stageAll_ok_iff :
    stageAll upcaster drafts = .ok outputs ↔ Gives (thread [upcaster]) drafts outputs := by
  induction drafts generalizing outputs with
  | nil =>
    rw [UpcastRun.gives_nil, stageAll]
    simp [eq_comm]
  | cons draft rest ih =>
    rw [UpcastRun.gives_cons, thread_singleton, stageAll]
    cases stageOne upcaster draft with
    | error error => simp
    | ok earlier =>
      cases hrest : stageAll upcaster rest with
      | error error =>
        have hnone : ∀ later, ¬ Gives (thread [upcaster]) rest later := by
          intro later hlater
          rw [ih.mpr hlater] at hrest
          cases hrest
        simp [Except.map, hnone]
      | ok later =>
        have hlater := ih.mp hrest
        constructor
        · intro h
          cases h
          exact ⟨earlier, later, rfl, hlater, rfl⟩
        · rintro ⟨earlier', later', hearlier, hlater', rfl⟩
          cases hearlier
          rw [ih.mpr hlater'] at hrest
          cases hrest
          rfl

/-- Running one stage after another on the whole list gives what threading the drafts gives. -/
theorem stageByStage_ok_iff :
    stageByStage stages drafts = .ok outputs ↔ Gives (thread stages) drafts outputs := by
  induction stages generalizing drafts outputs with
  | nil =>
    rw [gives_thread_nil, stageByStage]
    simp [eq_comm]
  | cons upcaster rest ih =>
    have hcut : Gives (thread ([upcaster] ++ rest)) drafts outputs ↔
        ∃ middle, Gives (thread [upcaster]) drafts middle ∧ Gives (thread rest) middle outputs :=
      UpcastRun.gives_comp fun draft outputs => thread_append_ok_iff
    rw [List.singleton_append] at hcut
    rw [hcut, stageByStage]
    cases hstage : stageAll upcaster drafts with
    | error error =>
      simp only [reduceCtorEq, false_iff]
      rintro ⟨middle, hmiddle, -⟩
      rw [stageAll_ok_iff.mpr hmiddle] at hstage
      cases hstage
    | ok middle =>
      dsimp only
      rw [ih]
      constructor
      · intro h
        exact ⟨middle, stageAll_ok_iff.mp hstage, h⟩
      · rintro ⟨middle', hmiddle, h⟩
        rw [stageAll_ok_iff.mpr hmiddle] at hstage
        cases hstage
        exact h

end

/-! ## The calls of a draft -/

/-- The calls that a draft comes to, depth first: the one of the draft itself, then those of each output in
turn. A call that fails leads to no others. -/
def expansion : List Upcaster → Draft → List UpcastCall
  | [], _ => []
  | upcaster :: rest, draft =>
    if upcaster.supports draft then
      ⟨upcaster, draft⟩ :: ((upcaster.upcast draft).toOption.getD []).flatMap (expansion rest)
    else expansion rest draft

/-- Threading a draft goes through the calls that the draft comes to. -/
theorem traces_thread (stages : List Upcaster) (draft : Draft) :
    (thread stages draft).Traces (expansion stages draft) := by
  induction stages generalizing draft with
  | nil => exact .pure [draft]
  | cons upcaster rest ih =>
    simp only [thread, expansion]
    by_cases hsupports : upcaster.supports draft = true
    · rw [if_pos hsupports, if_pos hsupports]
      cases hupcast : upcaster.upcast draft with
      | error error =>
        have hfails : UpcastCall.error? ⟨upcaster, draft⟩ = some error := by
          rw [UpcastCall.error?, hupcast]
        constructor
        · rw [UpcastRun.untilFailure, hfails]
        · intro other
          rw [List.findSome?_cons, hfails]
          simp
      | ok inner =>
        have hsucceeds : UpcastCall.error? ⟨upcaster, draft⟩ = none := by
          rw [UpcastCall.error?, hupcast]
        exact (Traces.sequence fun output _ => ih output).after hsucceeds
    · rw [if_neg hsupports, if_neg hsupports]
      exact ih draft

/-! ## Records -/

/-- Records opened, threaded through the chain and closed, also when there is no stage. -/
def throughDrafts (chain : UpcastChain) (records : List Record) : RecordRun :=
  let run := UpcastRun.sequence chain.upcast (records.map Draft.ofRecord)
  ⟨run.calls, run.outcome.map (·.map Draft.toRecord)⟩

theorem map_toRecord_ofRecord (records : List Record) :
    (records.map Draft.ofRecord).map Draft.toRecord = records := by
  rw [List.map_map]
  exact List.map_id records

theorem map_ofRecord_toRecord (drafts : List Draft) :
    (drafts.map Draft.toRecord).map Draft.ofRecord = drafts := by
  rw [List.map_map]
  exact List.map_id drafts

/-- Without stages nothing is called, and every draft comes out as it went in. -/
theorem sequence_thread_nil (drafts : List Draft) :
    UpcastRun.sequence (thread []) drafts = .pure drafts := by
  have hcalls := (Traces.sequence fun draft (_ : draft ∈ drafts) => traces_thread [] draft).made
  have hnone : drafts.flatMap (expansion []) = [] := List.flatMap_eq_nil_iff.mpr fun _ _ => rfl
  rw [hnone] at hcalls
  have houtcome : (UpcastRun.sequence (thread []) drafts).outcome = .ok drafts :=
    gives_thread_nil.mpr rfl
  cases hrun : UpcastRun.sequence (thread []) drafts with
  | mk calls outcome =>
    rw [hrun] at hcalls houtcome
    cases hcalls
    cases houtcome
    rfl

/-- Doing nothing when there is no stage makes no difference. -/
theorem upcastRecords_eq (chain : UpcastChain) (records : List Record) :
    chain.upcastRecords records = chain.throughDrafts records := by
  obtain ⟨stages⟩ := chain
  cases stages with
  | nil =>
    have hrun : UpcastRun.sequence (upcast ⟨[]⟩) (records.map Draft.ofRecord)
        = .pure (records.map Draft.ofRecord) := sequence_thread_nil _
    show (⟨[], .ok records⟩ : RecordRun) = throughDrafts ⟨[]⟩ records
    rw [throughDrafts, hrun]
    show _ = (⟨[], .ok ((records.map Draft.ofRecord).map Draft.toRecord)⟩ : RecordRun)
    rw [map_toRecord_ofRecord]
  | cons upcaster rest => rfl

theorem upcastRecords_outcome (chain : UpcastChain) (records : List Record) :
    (chain.upcastRecords records).outcome
      = (UpcastRun.sequence (thread chain.stages) (records.map Draft.ofRecord)).outcome.map
          (·.map Draft.toRecord) := by
  rw [upcastRecords_eq]
  rfl

/-- What comes out of records is what is given for their drafts, closed. -/
theorem upcastRecords_gives {chain : UpcastChain} {records outputs : List Record} :
    (chain.upcastRecords records).outcome = .ok outputs ↔
      Gives (thread chain.stages) (records.map Draft.ofRecord) (outputs.map Draft.ofRecord) := by
  rw [upcastRecords_outcome, Gives]
  cases UpcastRun.sequence (thread chain.stages) (records.map Draft.ofRecord) with
  | mk calls outcome =>
    cases outcome with
    | error error => simp [Except.map]
    | ok drafts =>
      simp only [Except.map, Except.ok.injEq]
      constructor
      · rintro rfl
        exact (map_ofRecord_toRecord drafts).symm
      · rintro rfl
        exact map_toRecord_ofRecord outputs

/-- A chain may be cut: what comes out of the front is closed, and opened again for the back. -/
theorem upcastRecords_cut {front back : List Upcaster} {records outputs : List Record} :
    (upcastRecords ⟨front ++ back⟩ records).outcome = .ok outputs ↔
      ∃ middle, (upcastRecords ⟨front⟩ records).outcome = .ok middle ∧
        (upcastRecords ⟨back⟩ middle).outcome = .ok outputs := by
  rw [upcastRecords_gives]
  refine (UpcastRun.gives_comp fun draft outputs => thread_append_ok_iff).trans ?_
  constructor
  · rintro ⟨middle, hfront, hback⟩
    refine ⟨middle.map Draft.toRecord, ?_, ?_⟩
    · rw [upcastRecords_gives, map_ofRecord_toRecord]
      exact hfront
    · rw [upcastRecords_gives, map_ofRecord_toRecord]
      exact hback
  · rintro ⟨middle, hfront, hback⟩
    exact ⟨middle.map Draft.ofRecord, upcastRecords_gives.mp hfront, upcastRecords_gives.mp hback⟩

/-- Records go through the calls that they come to, one record after another. -/
theorem traces_records (stages : List Upcaster) (records : List Record) :
    (UpcastRun.sequence (thread stages) (records.map Draft.ofRecord)).Traces
      (records.flatMap fun record => expansion stages (.ofRecord record)) := by
  rw [← List.flatMap_map]
  exact Traces.sequence fun draft _ => traces_thread stages draft

theorem upcastRecords_error_iff (chain : UpcastChain) (records : List Record) (error : StoreError) :
    (chain.upcastRecords records).outcome = .error error ↔
      (records.flatMap fun record => expansion chain.stages (.ofRecord record)).findSome?
        UpcastCall.error? = some error := by
  rw [← (traces_records chain.stages records).fails error, upcastRecords_outcome]
  cases (UpcastRun.sequence (thread chain.stages) (records.map Draft.ofRecord)).outcome <;>
    simp [Except.map]

theorem upcastRecords_append (chain : UpcastChain) (records more : List Record) :
    (chain.upcastRecords (records ++ more)).outcome
      = (chain.upcastRecords records).outcome.bind fun outputs =>
          (chain.upcastRecords more).outcome.map (outputs ++ ·) := by
  simp only [upcastRecords_outcome, List.map_append, UpcastRun.sequence_append]
  unfold UpcastRun.append
  cases (UpcastRun.sequence (thread chain.stages) (records.map Draft.ofRecord)).outcome with
  | error error => rfl
  | ok drafts =>
    cases (UpcastRun.sequence (thread chain.stages) (more.map Draft.ofRecord)).outcome with
    | error error => rfl
    | ok later => simp [Except.map, Except.bind]

theorem upcastRecords_singleton (chain : UpcastChain) (draft : Draft) :
    (chain.upcastRecords [draft.toRecord]).outcome
      = (chain.upcast draft).outcome.map (·.map Draft.toRecord) := by
  rw [upcastRecords_outcome]
  show (UpcastRun.append (chain.upcast draft) (.pure [])).outcome.map _ = _
  unfold UpcastRun.append
  cases (chain.upcast draft).outcome with
  | error error => rfl
  | ok outputs => simp [Except.map, UpcastRun.pure]

/-- **Depth first is stage by stage**: upcasting records through a chain gives what its front and then its
back give, wherever it is cut, and so what its stages give one after another on the whole list. If it fails,
it fails as the first failing call does among those that the records come to, depth first and in their order,
and it makes no call after that one. Records may be upcast in several lists or one by one, and opening and
closing them changes nothing, also when there is no stage. -/
theorem upcast_stage_by_stage (front back : List Upcaster) (records : List Record) :
    let chain : UpcastChain := ⟨front ++ back⟩
    let calls := records.flatMap fun record => expansion (front ++ back) (.ofRecord record)
    (∀ outputs, (chain.upcastRecords records).outcome = .ok outputs ↔
      ∃ middle, (upcastRecords ⟨front⟩ records).outcome = .ok middle ∧
        (upcastRecords ⟨back⟩ middle).outcome = .ok outputs) ∧
      (∀ outputs, (chain.upcastRecords records).outcome = .ok outputs ↔
        stageByStage (front ++ back) (records.map Draft.ofRecord)
          = .ok (outputs.map Draft.ofRecord)) ∧
      (∀ error, (chain.upcastRecords records).outcome = .error error ↔
        calls.findSome? UpcastCall.error? = some error) ∧
      (chain.upcastRecords records).calls = UpcastRun.untilFailure calls ∧
      (∀ more, (chain.upcastRecords (records ++ more)).outcome
        = (chain.upcastRecords records).outcome.bind fun outputs =>
            (chain.upcastRecords more).outcome.map (outputs ++ ·)) ∧
      (∀ draft, (chain.upcastRecords [draft.toRecord]).outcome
        = (chain.upcast draft).outcome.map (·.map Draft.toRecord)) ∧
      chain.upcastRecords records = chain.throughDrafts records ∧
      (∀ record, (Draft.ofRecord record).toRecord = record) ∧
      ∀ draft, Draft.ofRecord draft.toRecord = draft := by
  intro chain calls
  refine ⟨fun _ => upcastRecords_cut, ?_, chain.upcastRecords_error_iff records, ?_,
    chain.upcastRecords_append records, chain.upcastRecords_singleton,
    chain.upcastRecords_eq records, Draft.toRecord_ofRecord, Draft.ofRecord_toRecord⟩
  · intro outputs
    rw [upcastRecords_gives, stageByStage_ok_iff]
  · rw [upcastRecords_eq]
    exact (traces_records (front ++ back) records).made

/-- Two stages: the first fails on what is of type "b", the second on what is of type "a". -/
def brittle : List Upcaster :=
  ["b", "a"].map fun name =>
    { name, supports := fun _ => true,
      upcast := fun draft =>
        if draft.typeName = name then .error (.unknownEventType name) else .ok [draft] }

/-- Two orders, two failures: depth first the second stage fails on the first record before the first stage
comes to the second. -/
example :
    let records := ["a", "b"].map fun name =>
      ({ (default : Record) with event := ⟨⟨name⟩, name, .null, .empty⟩ } : Record)
    (upcastRecords ⟨brittle⟩ records).outcome = .error (.unknownEventType "a") ∧
      stageByStage brittle (records.map Draft.ofRecord) = .error (.unknownEventType "b") :=
  ⟨rfl, rfl⟩

end UpcastChain

end EventJournal
