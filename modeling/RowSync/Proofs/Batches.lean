import RowSync.Proofs.ClaimedEdits

/-!
# Outcomes of Batches

What decides whether a batch can be applied. A batch may delete only rows that are there or that it
writes itself before (`checkPresent`), and it needs a timestamp for each of its mutations, of which
a scope has a number left that is known from its mark and the wall clock (`ScopeState.timesLeft`).
A batch that does not run out of timestamps fails just as `checkPresent` fails
(`ScopeState.applyAll_cases`), and it does not run out just if no more mutations than timestamps are
left (`ScopeState.length_le_timesLeft`).
-/

namespace RowSync

/-- A batch may delete only rows that are there: known rows, and those that it writes before. -/
def checkPresent (isKnown : RowId → Bool) : List Mutation → Except SyncError Unit
  | [] => .ok ()
  | .upsert id _ :: rest => checkPresent (fun other => other == id || isKnown other) rest
  | .delete id :: rest => if isKnown id then checkPresent isKnown rest else .error (.rowNotFound id)

/-- Only of the rows that a batch names it matters whether they are known. -/
theorem checkPresent_congr {isKnown isKnown' : RowId → Bool} {batch : List Mutation}
    (h : ∀ id ∈ batch.map Mutation.rowId, isKnown id = isKnown' id) :
    checkPresent isKnown batch = checkPresent isKnown' batch := by
  induction batch generalizing isKnown isKnown' with
  | nil => rfl
  | cons mutation rest ih =>
    have hrest : ∀ id ∈ rest.map Mutation.rowId, isKnown id = isKnown' id := fun id hid =>
      h id (List.mem_cons_of_mem _ hid)
    cases mutation with
    | upsert id payload =>
      refine ih fun other hother => ?_
      rw [hrest other hother]
    | delete id =>
      have hid : isKnown id = isKnown' id := h id List.mem_cons_self
      rw [checkPresent, checkPresent, hid, ih hrest]

namespace ScopeState

variable {now seed : Timestamp} {state state' : ScopeState} {row : Row} {rows : List Row}
  {mutation : Mutation} {batch : List Mutation} {e : SyncError}

/-! ## Timestamps that are left -/

/-- The number of timestamps that a scope can assign while the wall clock shows a time. The first
one is what the clock shows, as far as it is in range, or the successor of the mark. -/
def timesLeft (state : ScopeState) (now : Timestamp) : Nat :=
  maxTimestamp.toNat + 1 - max (min now.toNat maxTimestamp.toNat) (state.mark.toNat + 1)

/-- A scope that has assigned the largest timestamp has none left. -/
theorem timesLeft_of_le (h : maxTimestamp ≤ state.mark) (now : Timestamp) :
    state.timesLeft now = 0 := by
  rw [UInt64.le_iff_toNat_le] at h
  rw [timesLeft]
  omega

/-- A write takes one of the timestamps that are left. -/
theorem timesLeft_of_apply (h : state.apply now mutation = .ok (row, state')) :
    state.timesLeft now = (state.put row).timesLeft now + 1 := by
  have htime := nextTime_of_apply h
  obtain ⟨-, hle⟩ := nextTime_eq_ok htime
  -- The timestamp of the row is the mark after it, and not behind the wall clock.
  have hrow := toNat_of_nextTime htime
  rw [UInt64.le_iff_toNat_le] at hle
  rw [timesLeft, timesLeft, mark_put]
  omega

/-- A batch that is applied takes a timestamp for each of its mutations. -/
theorem length_le_timesLeft (hsound : state.Sound)
    (h : state.applyAll now batch = .ok (rows, state')) : batch.length ≤ state.timesLeft now := by
  induction batch generalizing state rows with
  | nil => exact Nat.zero_le _
  | cons mutation rest ih =>
    obtain ⟨⟨row, middle⟩, hfirst, h⟩ := bind_eq_ok_iff.1 h
    obtain ⟨⟨others, last⟩, hrest, h⟩ := bind_eq_ok_iff.1 h
    cases h
    obtain ⟨-, rfl, hlt, hle, -⟩ := apply_eq_ok hsound hfirst
    rw [timesLeft_of_apply hfirst, List.length_cons]
    exact Nat.succ_le_succ (ih (hsound.put hlt hle) hrest)

/-! ## Failing batches -/

/-- Whether a row is there, be it a tombstone. -/
def isKnown (state : ScopeState) (id : RowId) : Bool := (state.get? id).isSome

theorem isKnown_put (state : ScopeState) (row : Row) :
    (state.put row).isKnown = fun id => id == row.id || state.isKnown id := by
  funext id
  rw [isKnown, isKnown, get?_put]
  by_cases hid : id = row.id <;> simp [hid]

/-- A mutation fails if there is no timestamp left, or if it deletes a row that is not there. -/
theorem apply_eq_error (h : state.apply now mutation = .error e) :
    maxTimestamp ≤ state.mark ∧ e = .timestampsExhausted state.mark ∨
      mutation = .delete mutation.rowId ∧ state.get? mutation.rowId = none ∧
        e = .rowNotFound mutation.rowId := by
  rcases UInt64.lt_or_le state.mark maxTimestamp with hlt | hle
  · right
    cases hget : state.get? mutation.rowId with
    | some before =>
      obtain ⟨row, state', hok⟩ := exists_apply_eq_ok now hget hlt
      rw [hok] at h
      cases h
    | none =>
      cases mutation with
      | upsert id payload =>
        rw [apply, upsert, nextTime_of_lt hlt] at h
        cases h
      | delete id =>
        have hget' : state.get? id = none := hget
        rw [apply, delete, hget'] at h
        cases h
        exact ⟨rfl, rfl, rfl⟩
  · cases mutation with
    | upsert id payload =>
      rw [apply, upsert, nextTime_of_le hle] at h
      cases h
      exact .inl ⟨hle, rfl⟩
    | delete id =>
      rw [apply, delete] at h
      -- The row is looked up before a timestamp is asked for.
      cases hget : state.get? id with
      | none =>
        rw [hget] at h
        cases h
        exact .inr ⟨rfl, hget, rfl⟩
      | some before =>
        rw [hget] at h
        simp only [nextTime_of_le hle] at h
        cases h
        exact .inl ⟨hle, rfl⟩

/-- A batch runs out of timestamps, which are fewer than its mutations, or it fails just as it
deletes a row that is not there. -/
theorem applyAll_cases (hsound : state.Sound) (now : Timestamp) (batch : List Mutation) :
    (state.timesLeft now < batch.length ∧
        ∃ mark, state.applyAll now batch = .error (.timestampsExhausted mark)) ∨
      (state.applyAll now batch).map (fun _ => ()) = checkPresent state.isKnown batch := by
  induction batch generalizing state with
  | nil => exact .inr rfl
  | cons mutation rest ih =>
    rw [applyAll]
    cases hfirst : state.apply now mutation with
    | error e =>
      rcases apply_eq_error hfirst with ⟨hmark, rfl⟩ | ⟨hdelete, hget, rfl⟩
      · rw [timesLeft_of_le hmark]
        exact .inl ⟨Nat.succ_pos _, state.mark, rfl⟩
      · right
        have hunknown : state.isKnown mutation.rowId = false := by rw [isKnown, hget]; rfl
        rw [hdelete, checkPresent, hunknown]
        rfl
    | ok told =>
      obtain ⟨row, middle⟩ := told
      obtain ⟨hid, rfl, hlt, hle, hcontent⟩ := apply_eq_ok hsound hfirst
      -- What is known after the first write decides about the rest.
      have hpresent : checkPresent (state.put row).isKnown rest =
          checkPresent state.isKnown (mutation :: rest) := by
        rw [isKnown_put, hid]
        cases mutation with
        | upsert id payload => rfl
        | delete id =>
          have hknown : state.isKnown id := by
            obtain ⟨before, _, hget, -⟩ := delete_eq_ok hfirst
            rw [isKnown, hget]
            rfl
          rw [checkPresent, if_pos hknown]
          refine checkPresent_congr fun other _ => ?_
          by_cases heq : other = id <;> simp [Mutation.rowId, heq, hknown]
      rcases ih (hsound.put hlt hle) with ⟨hfew, mark, hmark⟩ | hrest
      · refine .inl ⟨?_, mark, ?_⟩
        · rw [timesLeft_of_apply hfirst, List.length_cons]
          exact Nat.succ_lt_succ hfew
        · show (state.put row).applyAll now rest >>= _ = _
          rw [hmark]
          rfl
      · right
        rw [← hpresent, ← hrest]
        show ((state.put row).applyAll now rest >>= _).map _ = _
        cases (state.put row).applyAll now rest <;> rfl

/-- A batch that deletes only rows that are there fails just if it has more mutations than there are
timestamps left. -/
theorem exists_error_applyAll_iff (hsound : state.Sound) (now : Timestamp)
    (hpresent : checkPresent state.isKnown batch = .ok ()) :
    (∃ e, state.applyAll now batch = .error e) ↔ state.timesLeft now < batch.length := by
  constructor
  · rintro ⟨e, he⟩
    rcases applyAll_cases hsound now batch with ⟨hfew, -⟩ | hcases
    · exact hfew
    · rw [hpresent, he] at hcases
      cases hcases
  · intro hfew
    cases happly : state.applyAll now batch with
    | error e => exact ⟨e, rfl⟩
    | ok applied => exact absurd (length_le_timesLeft hsound happly) (Nat.not_le.2 hfew)

end ScopeState

end RowSync
