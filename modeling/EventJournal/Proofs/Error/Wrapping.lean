import EventJournal.Error.Basic

/-!
# Wrapping failures

A failure is annotated on its way up: every layer of the journal that knows the operation and the stream
adds them, to the failure or to the outcome that carries it. Callers tell failures apart by their root, their
code and what follows from these, so no annotation may change any of it, and a failure must not be wrapped
over and over.

* `StoreError.SameKind` — two failures that no classification tells apart. The root decides all of it
  (`SameKind.of_root`), so layers do not matter (`SameKind.inside`).
* `Outcome.annotated_error_eq` — only the first annotation can change anything.
* `annotated_error` — the main statement, for any annotations in any order.
-/

namespace EventJournal

namespace StoreError

/-! ## Layers -/

/-- Whether a failure is a wrapping. -/
def isContext : StoreError → Bool
  | context _ _ _ => true
  | _ => false

/-- The layers around the root, the outermost first. -/
def layers : StoreError → List (String × StreamId)
  | context operation stream source => (operation, stream) :: source.layers
  | _ => []

/-- A failure inside layers, the outermost first. -/
def inside (layers : List (String × StreamId)) (core : StoreError) : StoreError :=
  layers.foldr (fun layer source => .context layer.1 layer.2 source) core

theorem isContext_root (error : StoreError) : error.root.isContext = false := by
  induction error with
  | context operation stream source ih => exact ih
  | _ => rfl

theorem root_inside (layers : List (String × StreamId)) (core : StoreError) :
    (inside layers core).root = core.root := by
  induction layers with
  | nil => rfl
  | cons layer rest ih => exact ih

/-! ## Classifications -/

/-- The code looks through what the root looks through, and through nothing else. -/
theorem code_root (error : StoreError) : error.root.code = error.code := by
  induction error with
  | context operation stream source ih => exact ih
  | _ => rfl

/-- Two failures that no classification tells apart. -/
structure SameKind (error other : StoreError) : Prop where
  root : error.root = other.root
  code : error.code = other.code
  severity : error.severity = other.severity
  isRetryable : error.isRetryable = other.isRetryable
  isConcurrency : error.isConcurrency = other.isConcurrency
  isStreamNotFound : error.isStreamNotFound = other.isStreamNotFound

/-- Every classification is one of the root. -/
theorem SameKind.of_root {error other : StoreError} (h : error.root = other.root) :
    SameKind error other := by
  have hcode : error.code = other.code := by rw [← code_root error, h, code_root other]
  constructor
  case root => exact h
  case code => exact hcode
  case severity => exact congrArg ErrorCode.severity hcode
  case isRetryable => exact congrArg ErrorCode.isRetryable hcode
  case isConcurrency => simp only [StoreError.isConcurrency, h]
  case isStreamNotFound => simp only [StoreError.isStreamNotFound, h]

theorem SameKind.trans {error other third : StoreError} (h : SameKind error other)
    (h' : SameKind other third) : SameKind error third :=
  .of_root (h.root.trans h'.root)

/-- Layers do not matter. -/
theorem SameKind.inside (layers : List (String × StreamId)) (core : StoreError) :
    SameKind (inside layers core) core :=
  .of_root (root_inside layers core)

/-- The predicates on conflicts and on missing streams say what the code says. -/
theorem isConcurrency_iff (error : StoreError) :
    error.isConcurrency = true ↔ error.code = .concurrencyConflict := by
  induction error with
  | context operation stream source ih => exact ih
  | concurrency stream expected actual => exact iff_of_true rfl rfl
  | _ => exact iff_of_false nofun nofun

theorem isStreamNotFound_iff (error : StoreError) :
    error.isStreamNotFound = true ↔ error.code = .streamNotFound := by
  induction error with
  | context operation stream source ih => exact ih
  | streamNotFound stream => exact iff_of_true rfl rfl
  | _ => exact iff_of_false nofun nofun

/-! ## Failures that are left as they are -/

/-- The codes of the failures that callers match on. -/
def matchedCodes : List ErrorCode :=
  [.streamNotFound, .concurrencyConflict, .duplicateEventId, .globalStreamNotWritable,
    .internalStreamProtected, .notImplemented, .subscriptionClosed]

/-- Just the wrappings and the failures that callers match on pass unwrapped. -/
theorem passesUnwrapped_iff (error : StoreError) :
    error.passesUnwrapped = true ↔ error.isContext = true ∨ error.code ∈ matchedCodes := by
  cases error <;> simp [passesUnwrapped, isContext, code, matchedCodes]

end StoreError

/-! ## Annotations -/

/-- An operation and the stream it was made on, added to a failure on its way up. -/
structure Annotation where
  operation : String
  stream : StreamId
  /-- Added to the outcome as a whole, and not to the failure in it. -/
  onOutcome : Bool
  deriving Repr, DecidableEq, Inhabited

/-- A failure with the first of some annotations. -/
def StoreError.annotated (error : StoreError) (annotations : List Annotation) : StoreError :=
  match annotations with
  | [] => error
  | first :: _ => error.withContext first.operation first.stream

/-- An outcome with an annotation added. -/
def Outcome.annotate {α : Type} (outcome : Outcome α) (note : Annotation) : Outcome α :=
  if note.onOutcome then outcome.context note.operation note.stream
  else outcome.mapError (·.withContext note.operation note.stream)

/-- An outcome with annotations added one after another. -/
def Outcome.annotated {α : Type} (outcome : Outcome α) (annotations : List Annotation) : Outcome α :=
  annotations.foldl Outcome.annotate outcome

namespace StoreError

variable (error : StoreError) (annotations : List Annotation)

theorem root_annotated : (error.annotated annotations).root = error.root := by
  cases annotations with
  | nil => rfl
  | cons first rest => exact error.root_withContext first.operation first.stream

theorem annotated_eq : error.annotated annotations =
    if error.isContext = true ∨ error.code ∈ matchedCodes then error
    else match annotations with
      | [] => error
      | first :: _ => .context first.operation first.stream error := by
  cases annotations with
  | nil => exact (ite_self error).symm
  | cons first rest => simp only [annotated, withContext, passesUnwrapped_iff]

theorem length_layers_annotated :
    (error.annotated annotations).layers.length ≤ error.layers.length + 1 := by
  rw [annotated_eq]
  split
  · exact Nat.le_succ _
  · cases annotations with
    | nil => exact Nat.le_succ _
    | cons first rest => exact Nat.le_refl _

end StoreError

namespace Outcome

variable {α : Type}

theorem annotate_error (error : StoreError) (note : Annotation) :
    (annotate (.error error) note : Outcome α)
      = .error (error.withContext note.operation note.stream) := by
  unfold annotate
  split <;> rfl

/-- A success is not annotated. -/
theorem annotated_ok (value : α) (annotations : List Annotation) :
    (annotated (.ok value) annotations : Outcome α) = .ok value := by
  induction annotations with
  | nil => rfl
  | cons note rest ih =>
    have hstep : (annotate (.ok value) note : Outcome α) = .ok value := by
      unfold annotate
      split <;> rfl
    show annotated (annotate (.ok value) note) rest = .ok value
    rw [hstep, ih]

/-- What passes unwrapped passes any number of annotations. -/
theorem annotated_of_passesUnwrapped {error : StoreError} (h : error.passesUnwrapped = true)
    (annotations : List Annotation) :
    (annotated (.error error) annotations : Outcome α) = .error error := by
  induction annotations with
  | nil => rfl
  | cons note rest ih =>
    show annotated (annotate (.error error) note) rest = .error error
    rw [annotate_error, StoreError.withContext, if_pos h, ih]

/-- Only the first annotation counts: after it the failure passes unwrapped. -/
theorem annotated_error_eq (error : StoreError) (annotations : List Annotation) :
    (annotated (.error error) annotations : Outcome α) = .error (error.annotated annotations) := by
  cases annotations with
  | nil => rfl
  | cons first rest =>
    show annotated (annotate (.error error) first) rest = _
    rw [annotate_error]
    exact annotated_of_passesUnwrapped
      (error.passesUnwrapped_withContext first.operation first.stream) rest

end Outcome

/-- **Annotations change no classification**: any annotations, added in any order and in either way to a failure
that may be wrapped to any depth, give a failure of the same kind, and leave a success alone. A wrapping and a
failure that callers match on come out as they went in; any other is wrapped once, with the first operation and
stream. The root is never a wrapping, and a failed checkpoint or a failed handler is a root whatever lies beneath
it. The two predicates always say what the code says. -/
theorem annotated_error {α : Type} (error : StoreError) (annotations : List Annotation) :
    (∀ value : α, Outcome.annotated (.ok value) annotations = .ok value) ∧
    ∃ result : StoreError,
      (Outcome.annotated (.error error) annotations : Outcome α) = .error result ∧
      result.SameKind error ∧
      (result.isConcurrency = true ↔ result.code = .concurrencyConflict) ∧
      (result.isStreamNotFound = true ↔ result.code = .streamNotFound) ∧
      (result =
        if error.isContext = true ∨ error.code ∈ StoreError.matchedCodes then error
        else match annotations with
          | [] => error
          | first :: _ => .context first.operation first.stream error) ∧
      result.layers.length ≤ error.layers.length + 1 ∧
      result.root.isContext = false ∧
      (∀ layers processor source, error = .inside layers (.checkpoint processor source) →
        result.root = .checkpoint processor source ∧ result.code = .checkpointFailed ∧
          result.isConcurrency = false ∧ result.isStreamNotFound = false) ∧
      ∀ layers processor position reasons,
        error = .inside layers (.handler processor position reasons) →
        result.root = .handler processor position reasons ∧ result.code = .handlerFailed ∧
          result.isConcurrency = false ∧ result.isStreamNotFound = false := by
  refine ⟨fun value => Outcome.annotated_ok value annotations, ?_⟩
  have hsame : (error.annotated annotations).SameKind error := .of_root (error.root_annotated annotations)
  refine ⟨error.annotated annotations, Outcome.annotated_error_eq error annotations, hsame,
    StoreError.isConcurrency_iff _, StoreError.isStreamNotFound_iff _, error.annotated_eq annotations,
    error.length_layers_annotated annotations, StoreError.isContext_root _, ?_, ?_⟩
  · rintro layers processor source rfl
    have hcore := hsame.trans (.inside layers (.checkpoint processor source))
    exact ⟨hcore.root, hcore.code, hcore.isConcurrency, hcore.isStreamNotFound⟩
  · rintro layers processor position reasons rfl
    have hcore := hsame.trans (.inside layers (.handler processor position reasons))
    exact ⟨hcore.root, hcore.code, hcore.isConcurrency, hcore.isStreamNotFound⟩

/-- A conflict beneath a failed checkpoint is not seen through two layers, and a failure of the database gets
the first of two annotations. -/
theorem annotated_error_sample :
    let unsaved : StoreError := .checkpoint "p" (.concurrency ⟨"s"⟩ ⟨0⟩ ⟨1⟩)
    let annotations : List Annotation := [⟨"append", ⟨"a"⟩, true⟩, ⟨"read", ⟨"b"⟩, false⟩]
    (∃ result : StoreError,
      (Outcome.annotated (.error (.inside [("c", ⟨"c"⟩), ("d", ⟨"d"⟩)] unsaved)) annotations : Outcome Unit)
          = .error result ∧
        result.root = unsaved ∧ result.isConcurrency = false) ∧
      (Outcome.annotated (.error (.database .poolClosed)) annotations : Outcome Unit)
        = .error (.context "append" ⟨"a"⟩ (.database .poolClosed)) := by
  intro unsaved annotations
  obtain ⟨-, result, happlied, -, -, -, -, -, -, hcheckpoint, -⟩ :=
    annotated_error (α := Unit) (.inside [("c", ⟨"c"⟩), ("d", ⟨"d"⟩)] unsaved) annotations
  obtain ⟨-, other, hother, -, -, -, hwrapped, -⟩ :=
    annotated_error (α := Unit) (.database .poolClosed) annotations
  obtain ⟨hroot, -, hconcurrency, -⟩ := hcheckpoint _ _ _ rfl
  refine ⟨⟨result, happlied, hroot, hconcurrency⟩, ?_⟩
  have hnot : ¬ (StoreError.isContext (.database .poolClosed) = true ∨
      StoreError.code (.database .poolClosed) ∈ StoreError.matchedCodes) := by decide
  rw [hother, hwrapped, if_neg hnot]

end EventJournal
