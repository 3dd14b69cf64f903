import EventJournal.Upcast.Chain
import EventJournal.Store.Basic

/-!
# A store with upcast reads

Wraps a store so that its reads give records of the current schema. The type filter of a read is
applied after upcasting and so names current types; the greatest count bounds the stored records
read. Writes and every other query go to the inner store unchanged.
-/

namespace EventJournal

/-- Upcasts the slice of a read and applies the type filter the read was asked for. -/
def UpcastChain.upcastSlice (chain : UpcastChain) (stream : StreamId) (filter : Option TypeFilter)
    (slice : Slice) (state : σ) : Answer σ Slice :=
  let run := chain.upcastRecords slice.records
  let records := run.outcome.map (·.filter fun record => admitsType filter record.typeName)
  ⟨(Outcome.context records "upcast" stream).map (Slice.mk stream ·), state,
    UpcastChain.samples run.calls⟩

/-- A store whose reads go through a chain. -/
def Store.upcasting (inner : Store σ) (chain : UpcastChain) : Store σ :=
  { inner with
    read := fun stream options state =>
      (inner.read stream { options with filter := none } state).andThen
        (chain.upcastSlice stream options.filter) }

end EventJournal
