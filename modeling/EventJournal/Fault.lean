import EventJournal.Error.Basic

/-!
# Planned failures

A fault says that an operation is to fail, and how often. Operations look for the first fault meant
for them that has not run out; it is used once more and its error is their outcome.

Main statement: `Fault.take_eq_none_iff`, an operation goes through exactly when no fault is meant for
it.
-/

namespace EventJournal

/-- A planned failure of an operation out of `ω`. -/
structure Fault (ω : Type) where
  operation : ω
  error : StoreError
  /-- How often it is still to happen; a negative number means always. -/
  times : Int
  deriving Repr, DecidableEq, Inhabited

namespace Fault

variable {ω : Type} [DecidableEq ω]

/-- Whether a fault is meant for an operation and has not run out. -/
def strikes (fault : Fault ω) (operation : ω) : Bool :=
  fault.operation = operation && fault.times ≠ 0

/-- A fault that happened once more. -/
def used (fault : Fault ω) : Fault ω :=
  if 0 < fault.times then { fault with times := fault.times - 1 } else fault

/-- The error of the first fault meant for an operation, and the faults after it happened. -/
def take (operation : ω) : List (Fault ω) → Option (StoreError × List (Fault ω))
  | [] => none
  | fault :: rest =>
    if fault.strikes operation then some (fault.error, fault.used :: rest)
    else (take operation rest).map fun (error, rest) => (error, fault :: rest)

theorem take_eq_none_iff (operation : ω) (faults : List (Fault ω)) :
    take operation faults = none ↔ ∀ fault ∈ faults, fault.strikes operation = false := by
  induction faults with
  | nil => simp [take]
  | cons fault rest ih => by_cases h : fault.strikes operation = true <;> simp [take, h, ih]

end Fault

/-- A state with faults planned for the operations on it. -/
structure Faulty (ω σ : Type) where
  faults : List (Fault ω)
  inner : σ

namespace Faulty

variable {ω σ α : Type} [DecidableEq ω]

/-- A state with no faults planned. -/
def create (inner : σ) : Faulty ω σ := ⟨[], inner⟩

/-- Plans a fault, behind those planned before. -/
def plan (faulty : Faulty ω σ) (fault : Fault ω) : Faulty ω σ :=
  { faulty with faults := faulty.faults ++ [fault] }

/-- Runs an operation unless a fault strikes it. -/
def run (operation : ω) (action : σ → Outcome α × σ) (faulty : Faulty ω σ) :
    Outcome α × Faulty ω σ :=
  match Fault.take operation faulty.faults with
  | some (error, faults) => (.error error, { faulty with faults })
  | none =>
    let (outcome, inner) := action faulty.inner
    (outcome, { faulty with inner })

end Faulty

end EventJournal
