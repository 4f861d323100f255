/-!
# Timestamps

Timestamps are milliseconds since the epoch in 64-bit words. Those that the service assigns or lets
in from clients stay within the positive half of the signed words, so that a database column of
signed 64-bit integers holds them unchanged.
-/

namespace RowSync

/-- Milliseconds since the epoch. -/
abbrev Timestamp := UInt64

/-- The largest timestamp that is ever assigned. -/
def maxTimestamp : Timestamp := 9223372036854775807

namespace Timestamp

/-- The sum of two timestamps, or the largest word if the sum does not fit in one. -/
def addCapped (a b : Timestamp) : Timestamp :=
  if a + b < a then 18446744073709551615 else a + b

/-- A capped sum, as a natural number. -/
theorem toNat_addCapped (a b : Timestamp) :
    (addCapped a b).toNat = min (a.toNat + b.toNat) (UInt64.size - 1) := by
  have ha := a.toNat_lt
  have hb := b.toNat_lt
  simp only [addCapped, UInt64.size]
  split <;> rename_i h <;> simp only [UInt64.lt_iff_toNat_lt, UInt64.toNat_add] at h ⊢
  · simp only [UInt64.reduceToNat]
    omega
  · omega

end Timestamp

/-- A wall clock that is moved by hand. -/
structure WallClock where
  /-- What the clock shows. -/
  now : Timestamp
deriving DecidableEq, Repr

namespace WallClock

/-- Set the clock. -/
def set (_ : WallClock) (now : Timestamp) : WallClock := ⟨now⟩

/-- Move the clock forward; past the largest word it starts again at zero. -/
def advance (clock : WallClock) (millis : Timestamp) : WallClock := ⟨clock.now + millis⟩

end WallClock

end RowSync
