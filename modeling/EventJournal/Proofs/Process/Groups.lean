import EventJournal.Process.Pass

/-!
# A pass works group by group

Records at one position form a group: they are committed together. The plan of a pass looks at the
records one by one, at their neighbours only; seen from afar it is one block of actions for each
group, in order.

Main statement: `plan_flatMap`, the plan for the outputs of some sources is one block for each source.
-/

namespace EventJournal

namespace PassAction

/-- What a pass does with the records at one position. -/
def group (strategy : CommitStrategy) (position : Position) (records : List Record) :
    List PassAction :=
  match strategy with
  | .beforeHandling => commit position :: records.map (handle · position)
  | .afterHandling => records.map (handle · position) ++ [commit position]

variable {stream : StreamId} {position : Position} {records rest : List Record}

/-- Within a group that is committed already, records are only handled. -/
theorem planFrom_committed (same : ∀ record ∈ records, record.positionIn stream = position) :
    planFrom .beforeHandling stream (some position) (records ++ rest)
      = records.map (handle · position)
        ++ planFrom .beforeHandling stream (some position) rest := by
  induction records with
  | nil => rfl
  | cons record others ih =>
    have hrecord := same record List.mem_cons_self
    have hothers := ih fun other hother => same other (List.mem_cons_of_mem _ hother)
    simp only [List.cons_append, planFrom, hrecord, hothers, ne_eq, not_true_eq_false, decide_false,
      Bool.false_eq_true, if_false, List.nil_append, List.map_cons]

/-- A group is committed before its first record is handled. -/
theorem planFrom_beforeHandling {previous : Option Position} (nonempty : records ≠ [])
    (same : ∀ record ∈ records, record.positionIn stream = position)
    (opens : previous ≠ some position) :
    planFrom .beforeHandling stream previous (records ++ rest)
      = group .beforeHandling position records
        ++ planFrom .beforeHandling stream (some position) rest := by
  cases records with
  | nil => exact absurd rfl nonempty
  | cons record others =>
    have hrecord := same record List.mem_cons_self
    have hothers : ∀ other ∈ others, other.positionIn stream = position :=
      fun other hother => same other (List.mem_cons_of_mem _ hother)
    simp only [List.cons_append, planFrom, hrecord, planFrom_committed hothers, opens, ne_eq,
      not_false_eq_true, decide_true, if_true, List.nil_append, group, List.map_cons]

/-- A group is committed after its last record was handled. -/
theorem planFrom_afterHandling {previous : Option Position} (nonempty : records ≠ [])
    (same : ∀ record ∈ records, record.positionIn stream = position)
    (closes : rest.head?.map (·.positionIn stream) ≠ some position) :
    planFrom .afterHandling stream previous (records ++ rest)
      = group .afterHandling position records
        ++ planFrom .afterHandling stream (some position) rest := by
  induction records generalizing previous with
  | nil => exact absurd rfl nonempty
  | cons record others ih =>
    have hrecord := same record List.mem_cons_self
    have hothers : ∀ other ∈ others, other.positionIn stream = position :=
      fun other hother => same other (List.mem_cons_of_mem _ hother)
    cases others with
    | nil =>
      -- the last record of the group: what follows lies elsewhere
      simp only [List.cons_append, List.nil_append, planFrom, hrecord, closes, ne_eq,
        not_false_eq_true, decide_true, if_true, group, List.map_cons, List.map_nil]
    | cons next more =>
      have hnext := hothers next List.mem_cons_self
      have hinner := @ih (some position) (List.cons_ne_nil _ _) hothers
      rw [List.cons_append, planFrom, hrecord, hinner]
      simp only [List.cons_append, List.head?_cons, Option.map_some, hnext, ne_eq, not_true_eq_false,
        decide_false, Bool.false_eq_true, if_false, List.nil_append, group, List.map_cons]

/-- The plan for a group, and what comes after it. -/
theorem planFrom_group (strategy : CommitStrategy) {previous : Option Position}
    (nonempty : records ≠ []) (same : ∀ record ∈ records, record.positionIn stream = position)
    (opens : previous ≠ some position)
    (closes : rest.head?.map (·.positionIn stream) ≠ some position) :
    planFrom strategy stream previous (records ++ rest)
      = group strategy position records ++ planFrom strategy stream (some position) rest := by
  cases strategy with
  | beforeHandling => exact planFrom_beforeHandling nonempty same opens
  | afterHandling => exact planFrom_afterHandling nonempty same closes

/-- The blocks for the groups of some sources. -/
def groups (strategy : CommitStrategy) (stream : StreamId) (outputs : Record → List Record)
    (sources : List Record) : List PassAction :=
  sources.flatMap fun source => group strategy (source.positionIn stream) (outputs source)

theorem planFrom_flatMap (strategy : CommitStrategy) {outputs : Record → List Record}
    {sources : List Record} {previous : Option Position}
    (nonempty : ∀ source ∈ sources, outputs source ≠ [])
    (placed : ∀ source ∈ sources, ∀ output ∈ outputs source,
      output.positionIn stream = source.positionIn stream)
    (apart : sources.Pairwise fun a b => a.positionIn stream ≠ b.positionIn stream)
    (opens : ∀ source ∈ sources, previous ≠ some (source.positionIn stream)) :
    planFrom strategy stream previous (sources.flatMap outputs)
      = groups strategy stream outputs sources := by
  induction sources generalizing previous with
  | nil => rfl
  | cons source later ih =>
    obtain ⟨hsource, hlater⟩ := List.pairwise_cons.mp apart
    have hopens : ∀ other ∈ later, some (source.positionIn stream) ≠ some (other.positionIn stream) :=
      fun other hother heq => hsource other hother (Option.some.inj heq)
    have hcloses : (later.flatMap outputs).head?.map (·.positionIn stream)
        ≠ some (source.positionIn stream) := by
      intro hhead
      -- the record after the group is an output of a later source
      obtain ⟨next, hnext, hposition⟩ := Option.map_eq_some_iff.mp hhead
      obtain ⟨other, hother, houtput⟩ := List.mem_flatMap.mp (List.mem_of_head? hnext)
      have hplaced := placed other (List.mem_cons_of_mem _ hother) next houtput
      exact hsource other hother (hposition.symm.trans hplaced)
    have hrest := ih (fun other hother => nonempty other (List.mem_cons_of_mem _ hother))
      (fun other hother => placed other (List.mem_cons_of_mem _ hother)) hlater hopens
    rw [List.flatMap_cons, planFrom_group strategy (nonempty source List.mem_cons_self)
      (placed source List.mem_cons_self) (opens source List.mem_cons_self) hcloses, hrest]
    rfl

/-- Sources without outputs do not show in a read. -/
theorem flatMap_eq_filter (outputs : Record → List Record) (sources : List Record) :
    sources.flatMap outputs
      = (sources.filter fun source => !(outputs source).isEmpty).flatMap outputs := by
  induction sources with
  | nil => rfl
  | cons source later ih =>
    rw [List.flatMap_cons, List.filter_cons, ih]
    cases houtputs : outputs source with
    | nil => rfl
    | cons first others =>
      simp only [List.isEmpty_cons, Bool.not_false, if_true, List.flatMap_cons, houtputs]

/-- The plan for the outputs of some sources is one block for each source, in order. -/
theorem plan_flatMap (strategy : CommitStrategy) {outputs : Record → List Record}
    {sources : List Record} (nonempty : ∀ source ∈ sources, outputs source ≠ [])
    (placed : ∀ source ∈ sources, ∀ output ∈ outputs source,
      output.positionIn stream = source.positionIn stream)
    (apart : sources.Pairwise fun a b => a.positionIn stream ≠ b.positionIn stream) :
    plan strategy stream (sources.flatMap outputs) = groups strategy stream outputs sources :=
  planFrom_flatMap strategy nonempty placed apart fun _ _ => nofun

end PassAction

end EventJournal
