import RowSync.HybridClock

/-!
# Strictly Increasing Timestamps

A hybrid clock assigns timestamps that increase strictly, whatever the wall clock shows, and that
stay within the range of timestamps. It fails only when it has assigned the largest one.
-/

namespace RowSync

namespace Timestamp

theorem toNat_max (a b : Timestamp) : (max a b).toNat = max a.toNat b.toNat := by
  show (if a ≤ b then b else a).toNat = _
  split <;> rename_i h <;> rw [UInt64.le_iff_toNat_le] at h <;> omega

theorem toNat_min (a b : Timestamp) : (min a b).toNat = min a.toNat b.toNat := by
  show (if a ≤ b then a else b).toNat = _
  split <;> rename_i h <;> rw [UInt64.le_iff_toNat_le] at h <;> omega

/-- The greater of two timestamps is one of them and at least as great as both. -/
theorem max_cases (a b : Timestamp) :
    (max a b = a ∨ max a b = b) ∧ a ≤ max a b ∧ b ≤ max a b := by
  show ((if a ≤ b then b else a) = a ∨ (if a ≤ b then b else a) = b) ∧
    a ≤ (if a ≤ b then b else a) ∧ b ≤ (if a ≤ b then b else a)
  grind

/-- Adding one to a capped timestamp gives the next one, where timestamps are in range. -/
theorem addCapped_one_le_iff {time other : Timestamp} (h : other ≤ maxTimestamp) :
    time.addCapped 1 ≤ other ↔ time < other := by
  rw [UInt64.le_iff_toNat_le, UInt64.lt_iff_toNat_lt, toNat_addCapped]
  rw [UInt64.le_iff_toNat_le] at h
  simp only [maxTimestamp, UInt64.size, UInt64.toNat_ofNat] at h ⊢
  omega

end Timestamp

namespace HybridClock

variable {clock clock' : HybridClock} {seed time : Timestamp}

/-- The timestamp that a clock assigns unless it has assigned the largest one. -/
def next (clock : HybridClock) (seed : Timestamp) : Timestamp :=
  max (min seed maxTimestamp) (clock.highWater + 1)

/-- Before the largest timestamp is assigned, the clock goes on with the next one. -/
theorem tick_of_lt (h : clock.highWater < maxTimestamp) :
    clock.tick seed = .ok (clock.next seed, ⟨clock.next seed⟩) := by
  have hle : ¬maxTimestamp ≤ clock.highWater := UInt64.not_le.2 h
  simp only [tick, hle, ↓reduceIte, next]

theorem tick_of_le (h : maxTimestamp ≤ clock.highWater) :
    clock.tick seed = .error (.timestampsExhausted clock.highWater) := by
  simp only [tick, h, ↓reduceIte]

theorem toNat_next (h : clock.highWater < maxTimestamp) :
    (clock.next seed).toNat =
      max (min seed.toNat maxTimestamp.toNat) (clock.highWater.toNat + 1) := by
  rw [UInt64.lt_iff_toNat_lt] at h
  rw [next, Timestamp.toNat_max, Timestamp.toNat_min, UInt64.toNat_add]
  -- Below the largest timestamp the sum does not wrap.
  simp only [maxTimestamp, UInt64.toNat_ofNat] at h ⊢
  omega

/-- What the clock assigns is ahead of all it assigned before, and in range. -/
theorem tick_eq_ok (h : clock.tick seed = .ok (time, clock')) :
    clock.highWater < time ∧ time ≤ maxTimestamp ∧ clock'.highWater = time := by
  rcases UInt64.lt_or_le clock.highWater maxTimestamp with hlt | hle
  · rw [tick_of_lt hlt] at h
    cases h
    -- On natural numbers: the greater of the seed and the successor of the mark.
    rw [UInt64.lt_iff_toNat_lt, UInt64.le_iff_toNat_le, toNat_next hlt]
    rw [UInt64.lt_iff_toNat_lt] at hlt
    exact ⟨by omega, by omega, rfl⟩
  · rw [tick_of_le hle] at h
    cases h

/-- A clock that assigns no timestamp has none left. -/
theorem tick_eq_error {e : SyncError} (h : clock.tick seed = .error e) :
    e = .timestampsExhausted clock.highWater := by
  rw [tick] at h
  split at h
  · cases h
    rfl
  · cases h

end HybridClock

end RowSync
