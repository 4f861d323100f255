import RowSync.Error

/-!
# Hybrid Clocks

The clock from which a scope assigns timestamps. They increase strictly, whatever the wall clock
shows: each one is taken from the wall clock if that is ahead of all earlier ones, and is one more
than the last otherwise.
-/

namespace RowSync

/-- The clock of a scope. -/
structure HybridClock where
  /-- The largest timestamp assigned so far, zero if none. -/
  highWater : Timestamp
deriving DecidableEq, Repr

namespace HybridClock

/-- The clock of a scope that has assigned no timestamp. -/
def initial : HybridClock := ⟨0⟩

instance : Inhabited HybridClock := ⟨initial⟩

/-- Assign the next timestamp, `seed` if it is ahead. A scope that has assigned the largest
timestamp assigns no more. -/
def tick (clock : HybridClock) (seed : Timestamp) : Except SyncError (Timestamp × HybridClock) :=
  if maxTimestamp ≤ clock.highWater then .error (.timestampsExhausted clock.highWater)
  else
    let next := max (min seed maxTimestamp) (clock.highWater + 1)
    .ok (next, ⟨next⟩)

/-- Take note of a timestamp that was assigned before. -/
def observe (clock : HybridClock) (timestamp : Timestamp) : HybridClock :=
  ⟨max clock.highWater timestamp⟩

end HybridClock

end RowSync
