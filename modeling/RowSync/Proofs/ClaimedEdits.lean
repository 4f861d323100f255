import RowSync.Proofs.SyncTables

/-!
# Edits with Claimed Times

An edit that carries a claimed time is dropped if its row was written after that time. The times of
writes are those that the scope assigned, which may be ahead of the times that were claimed: they
are ahead of all that happened in the scope before. So of two edits of a row with increasing claims
the second one is taken if its claim is ahead of all that happened before the first one, and dropped
otherwise: then an edit may be lost to an older one. The reason is in `ScopeState.nextTime_le_iff`,
which compares a claim with the time that was assigned to an earlier one.
-/

namespace RowSync

/-- The call that makes a change with a claimed time. -/
def SyncCall.claiming (claim : Timestamp) : Mutation → SyncCall
  | .upsert id payload => .putIfRecent id payload claim
  | .delete id => .deleteIfRecent id claim

namespace ScopeState

variable {limits : Limits} {now seed claim later time : Timestamp} {state state' : ScopeState}
  {row : Row} {mutation : Mutation} {outcome : EditOutcome}

/-- A change with a claimed time is an edit that applies the mutation at that time. -/
theorem perform_claiming : state.perform limits now (.claiming claim mutation) =
    writing .outcome (state.edit limits now mutation.rowId claim fun state =>
      state.apply claim mutation) := by
  cases mutation <;> rfl

/-- A mutation that is applied puts its row at the next timestamp. -/
theorem nextTime_of_apply (h : state.apply seed mutation = .ok (row, state')) :
    state.nextTime seed = .ok row.modifiedAt := by
  cases mutation with
  | upsert id payload =>
    obtain ⟨time, htime, rfl, -⟩ := upsert_eq_ok h
    exact htime
  | delete id =>
    obtain ⟨_, time, -, htime, rfl, -⟩ := delete_eq_ok h
    exact htime

/-- A mutation of a row that exists can be applied before the largest timestamp is assigned. -/
theorem exists_apply_eq_ok (seed : Timestamp) (hget : state.get? mutation.rowId = some row)
    (hmark : state.mark < maxTimestamp) :
    ∃ row' state', state.apply seed mutation = .ok (row', state') := by
  cases mutation with
  | upsert id payload =>
    rw [apply, upsert, nextTime_of_lt hmark]
    exact ⟨_, _, rfl⟩
  | delete id =>
    have hget' : state.get? id = some row := hget
    -- A tombstone may be deleted again.
    rw [apply, delete, hget']
    simp only [nextTime_of_lt hmark]
    exact ⟨_, _, rfl⟩

/-- The next timestamp, as a natural number: the seed as far as it is in range, or the successor of
the mark if that is greater. -/
theorem toNat_of_nextTime (h : state.nextTime seed = .ok time) :
    time.toNat = max (min seed.toNat maxTimestamp.toNat) (state.mark.toNat + 1) := by
  rcases UInt64.lt_or_le state.mark maxTimestamp with hlt | hle
  · rw [nextTime_of_lt hlt] at h
    cases h
    exact HybridClock.toNat_next hlt
  · -- No time is left to assign.
    rw [nextTime_of_le hle] at h
    cases h

/-- The next timestamp after a claim in range is not ahead of a later claim just if that is ahead of
the mark. -/
theorem nextTime_le_iff (h : state.nextTime claim = .ok time) (hrange : claim ≤ maxTimestamp)
    (hlater : claim < later) : time ≤ later ↔ state.mark < later := by
  -- The time is the greater of the claim, which is not ahead of the later one, and the next mark.
  rw [UInt64.le_iff_toNat_le, UInt64.lt_iff_toNat_lt, toNat_of_nextTime h]
  rw [UInt64.le_iff_toNat_le] at hrange
  rw [UInt64.lt_iff_toNat_lt] at hlater
  omega

/-- The next timestamp after a claim in range is not behind the claim. -/
theorem le_of_nextTime (h : state.nextTime claim = .ok time) (hrange : claim ≤ maxTimestamp) :
    claim ≤ time := by
  rw [UInt64.le_iff_toNat_le, toNat_of_nextTime h]
  rw [UInt64.le_iff_toNat_le] at hrange
  omega

theorem le_maxTimestamp_of_checkClaim (h : limits.checkClaim claim now = .ok ()) :
    claim ≤ maxTimestamp := by
  rw [Limits.checkClaim] at h
  split at h
  · cases h
  · exact UInt64.not_lt.1 ‹_›

/-- An edit that is taken had a valid row id and an acceptable claim, and its write was done. -/
theorem edit_eq_applied {id : RowId} {write : ScopeState → Except SyncError (Row × ScopeState)}
    (h : state.edit limits now id claim write = .ok (.applied row, state')) :
    checkRowId id = .ok () ∧ limits.checkClaim claim now = .ok () ∧
      write state = .ok (row, state') := by
  obtain ⟨_, hid, h⟩ := bind_eq_ok_iff.1 h
  obtain ⟨_, hclaim, h⟩ := bind_eq_ok_iff.1 h
  refine ⟨hid, hclaim, ?_⟩
  split at h
  · -- An edit that finds a row in the way is not taken.
    cases h
  · obtain ⟨⟨written, last⟩, hwrite, h⟩ := bind_eq_ok_iff.1 h
    cases h
    exact hwrite

/-- An edit of a row is dropped if the row is ahead of the claim, and done otherwise. -/
theorem edit_of_get? {id : RowId} (write : ScopeState → Except SyncError (Row × ScopeState))
    (hid : checkRowId id = .ok ()) (hclaim : limits.checkClaim claim now = .ok ())
    (hget : state.get? id = some row) :
    state.edit limits now id claim write =
      if row.modifiedAt ≤ claim then (write state).map fun (row, state) => (.applied row, state)
      else .ok (.stale row, state) := by
  rw [edit, hid, hclaim, hget, filter_claim_lt]
  by_cases hle : row.modifiedAt ≤ claim
  · simp only [if_pos hle]
    show (write state >>= fun told => .ok (EditOutcome.applied told.1, told.2)) = _
    cases write state <;> rfl
  · simp only [if_neg hle]
    rfl

end ScopeState

namespace SyncTables

variable {limits : Limits} {start store : Store} {scope : Scope} {now later claim : Timestamp}
  {first second : Mutation} {row : Row}

/-- An edit that is taken had a valid row id and an acceptable claim, and applied its mutation. -/
theorem apply_of_perform (hsound : start.Sound)
    (hfirst : (perform limits start scope now (.claiming claim first)).1 =
      .ok (.outcome (.applied row))) :
    checkRowId first.rowId = .ok () ∧ claim ≤ maxTimestamp ∧
      (start.state scope).apply claim first =
        .ok (row, (perform limits start scope now (.claiming claim first)).2.state scope) := by
  have hfollows : start.Follows scope (perform limits start scope now (.claiming claim first)) _ :=
    follows_perform hsound _
  rw [hfollows.state]
  rw [hfollows.result] at hfirst
  rw [ScopeState.perform_claiming] at hfirst ⊢
  obtain ⟨⟨reply, state'⟩, hperform, rfl⟩ := map_eq_ok_iff.1 hfirst
  obtain ⟨outcome, hedit, houtcome⟩ := ScopeState.writing_eq_ok hperform
  cases houtcome
  obtain ⟨hid, hclaim, hwrite⟩ := ScopeState.edit_eq_applied hedit
  rw [hperform]
  exact ⟨hid, ScopeState.le_maxTimestamp_of_checkClaim hclaim, hwrite⟩

/-- An edit that is taken puts its row at the next timestamp after the claim. -/
theorem applied_of_perform (hsound : start.Sound)
    (hfirst : (perform limits start scope now (.claiming claim first)).1 =
      .ok (.outcome (.applied row))) :
    checkRowId first.rowId = .ok () ∧ claim ≤ maxTimestamp ∧
      (start.state scope).nextTime claim = .ok row.modifiedAt := by
  obtain ⟨hid, hrange, happly⟩ := apply_of_perform hsound hfirst
  exact ⟨hid, hrange, ScopeState.nextTime_of_apply happly⟩

/-- Of two edits of a row with increasing claims, between which the row is not written, the second
one is taken just if its claim is ahead of all that happened in the scope before the first one. Then
the row has the content of the second edit; otherwise it stays as it is. -/
theorem second_edit_outcome {claim' : Timestamp} (now' : Timestamp)
    (hreach : Reachable limits start) (hclaims : claim < claim') (hrow : second.rowId = first.rowId)
    (hfirst : (perform limits start scope now (.claiming claim first)).1 =
      .ok (.outcome (.applied row)))
    (hrun : RunsTo limits (perform limits start scope now (.claiming claim first)).2 store)
    (hkept : (store.state scope).get? first.rowId = some row)
    (hclaim : limits.checkClaim claim' now' = .ok ())
    (hspace : (store.state scope).mark < maxTimestamp) :
    ((start.state scope).mark < claim' →
      ∃ row', (perform limits store scope now' (.claiming claim' second)).1 =
          .ok (.outcome (.applied row')) ∧
        ((perform limits store scope now' (.claiming claim' second)).2.state scope).get?
          first.rowId = some row' ∧
        some row'.content = second.effect (some row.content)) ∧
    (claim' ≤ (start.state scope).mark →
      (perform limits store scope now' (.claiming claim' second)).1 =
          .ok (.outcome (.stale row)) ∧
        (perform limits store scope now' (.claiming claim' second)).2.state scope =
          store.state scope) := by
  have hstart : start.Sound := sound_of_reachable hreach
  have hstore : store.Sound := hrun.sound (follows_perform hstart _).sound
  have hstate : (store.state scope).Sound := (hstore scope).state
  obtain ⟨hid, hrange, htime⟩ := applied_of_perform hstart hfirst
  -- The row is ahead of the second claim just if all that was before the first edit is.
  have hgate : row.modifiedAt ≤ claim' ↔ (start.state scope).mark < claim' :=
    ScopeState.nextTime_le_iff htime hrange hclaims
  have hfollows :
      store.Follows scope (perform limits store scope now' (.claiming claim' second)) _ :=
    follows_perform hstore _
  rw [← hrow] at hid hkept
  rw [hfollows.result, hfollows.state, ScopeState.perform_claiming,
    ScopeState.edit_of_get? (fun state => state.apply claim' second) hid hclaim hkept, ← hrow]
  constructor
  · -- The row exists, so that its second edit can fail for want of timestamps only.
    intro hahead
    obtain ⟨row', state', happly⟩ := ScopeState.exists_apply_eq_ok claim' hkept hspace
    obtain ⟨hid', rfl, -, -, hcontent⟩ := ScopeState.apply_eq_ok hstate happly
    rw [if_pos (hgate.2 hahead), happly]
    refine ⟨row', rfl, ?_, ?_⟩
    · show ((store.state scope).put row').get? second.rowId = some row'
      rw [ScopeState.get?_put, if_pos hid'.symm]
    · rw [hcontent, hkept]
      rfl
  · intro hbehind
    have hlt : ¬row.modifiedAt ≤ claim' := fun hle =>
      absurd (hgate.1 hle) (UInt64.not_lt.2 hbehind)
    rw [if_neg hlt]
    exact ⟨rfl, rfl⟩

/-- An edit at 2600 replaces one at 2500, though another row was written at 3000 in between. -/
theorem second_edit_outcome_sample :
    ∃ row, (perform {} (perform {} (perform {} sampleStore sampleScope 2500
        (.claiming 2500 (.upsert "c" (sampleNote "old")))).2 sampleScope 3000
        (.put "b" (sampleNote "again"))).2 sampleScope 3000
        (.claiming 2600 (.delete "c"))).1 = .ok (.outcome (.applied row)) ∧
      some row.content = (Mutation.delete "c").effect (some (sampleNote "old", false)) := by
  have hfirst : (perform {} sampleStore sampleScope 2500
      (.claiming 2500 (.upsert "c" (sampleNote "old")))).1 =
        .ok (.outcome (.applied ⟨"c", sampleNote "old", 2500, false⟩)) := by rfl
  have hrow : (Mutation.delete "c").rowId = (Mutation.upsert "c" (sampleNote "old")).rowId := rfl
  have hclaim : Limits.checkClaim {} 2600 3000 = .ok () := rfl
  have hedit := second_edit_outcome 3000 reachable_sampleStore (by decide) hrow hfirst
    (.call sampleScope 3000 (.put "b" (sampleNote "again")) .refl) rfl hclaim (by decide)
  obtain ⟨row, happlied, -, hcontent⟩ := hedit.1 (by decide)
  exact ⟨row, happlied, hcontent⟩

/-- An edit at 600 gives way to one at 500, since another row was written before both at 2000. -/
theorem newer_edit_dropped :
    Reachable {} sampleStore ∧
      (perform {} sampleStore sampleScope 2000
        (.claiming 500 (.upsert "c" (sampleNote "old")))).1 =
          .ok (.outcome (.applied ⟨"c", sampleNote "old", 2001, false⟩)) ∧
      Limits.checkClaim {} 600 2000 = .ok () ∧
      (perform {} (perform {} sampleStore sampleScope 2000
        (.claiming 500 (.upsert "c" (sampleNote "old")))).2 sampleScope 2000
        (.claiming 600 (.upsert "c" (sampleNote "new")))).1 =
          .ok (.outcome (.stale ⟨"c", sampleNote "old", 2001, false⟩)) :=
  ⟨reachable_sampleStore, rfl, rfl, rfl⟩

end SyncTables

end RowSync
