import RowSync.Proofs.CheckedSums
import RowSync.Proofs.History
import RowSync.Proofs.Plans
import RowSync.Proofs.SingleWrites

/-!
# Running out of Timestamps

A scope that has assigned the largest timestamp stays as it is for good
(`ScopeState.GrowsTo.eq_of_exhausted`). Calls on it succeed just if they plan nothing, and otherwise
fail with the first mutation that they plan (`SyncTables.Exhausted`). Before that, a call that plans
more mutations than there are timestamps up to the largest one fails as a whole, and no call
computes a sum that does not fit in a word (`SyncTables.exhaustion_absorbs`).
-/

namespace RowSync

namespace ScopeState

variable {state state' : ScopeState} {seed : Timestamp} {mutation : Mutation}
  {batch : List Mutation} {rows : List Row} {e : SyncError}

/-! ## The largest timestamp -/

/-- A scope that has assigned the largest timestamp does not grow any more. -/
theorem GrowsTo.eq_of_exhausted (h : state.GrowsTo state') (hmark : state.mark = maxTimestamp) :
    state' = state := by
  obtain ⟨rows, hfresh, rfl⟩ := h
  cases rows with
  | nil => rfl
  | cons row rest =>
    -- A row would have a timestamp in range and ahead of the mark.
    have hlt : state.mark < row.modifiedAt := hfresh.ahead row List.mem_cons_self
    have hle : row.modifiedAt ≤ maxTimestamp := hfresh.inRange row List.mem_cons_self
    rw [hmark] at hlt
    exact absurd hle (UInt64.not_le.2 hlt)

/-- A mutation of a scope that has assigned the largest timestamp fails: a deletion because there is
no such row, if there never was one, and all others for want of a timestamp. -/
theorem apply_of_exhausted (hmark : state.mark = maxTimestamp) (seed : Timestamp)
    (mutation : Mutation) :
    state.apply seed mutation = .error
      (if mutation.isDelete ∧ state.get? mutation.rowId = none then .rowNotFound mutation.rowId
        else .timestampsExhausted maxTimestamp) := by
  have htime : state.nextTime seed = .error (.timestampsExhausted maxTimestamp) := by
    rw [nextTime_of_le (UInt64.le_of_eq hmark.symm), hmark]
  cases mutation with
  | upsert id payload =>
    rw [apply, upsert, htime]
    rfl
  | delete id =>
    rw [apply, delete]
    -- The row is looked up before a timestamp is asked for.
    cases hget : state.get? id with
    | none => simp [Mutation.isDelete, Mutation.rowId, hget]
    | some row =>
      simp only [htime, Mutation.rowId, hget, reduceCtorEq, and_false, ↓reduceIte]
      rfl

/-- A batch fails for want of a timestamp, or with a deletion of a row that is not there. -/
theorem applyAll_eq_error (hsound : state.Sound) (h : state.applyAll seed batch = .error e) :
    e = .timestampsExhausted maxTimestamp ∨ ∃ id, .delete id ∈ batch ∧ e = .rowNotFound id := by
  induction batch generalizing state with
  | nil => cases h
  | cons mutation rest ih =>
    rcases bind_eq_error_iff.1 h with hfirst | ⟨⟨row, middle⟩, hfirst, h⟩
    · rcases apply_eq_error hfirst with ⟨hmark, rfl⟩ | ⟨hdelete, -, rfl⟩
      · rw [UInt64.le_antisymm hsound.mark_le hmark]
        exact .inl rfl
      · exact .inr ⟨mutation.rowId, hdelete ▸ List.mem_cons_self, rfl⟩
    · obtain ⟨-, rfl, hlt, hle, -⟩ := apply_eq_ok hsound hfirst
      rcases bind_eq_error_iff.1 h with hrest | ⟨_, -, hdone⟩
      · rcases ih (hsound.put hlt hle) hrest with hexhausted | ⟨id, hmem, heq⟩
        · exact .inl hexhausted
        · exact .inr ⟨id, List.mem_cons_of_mem _ hmem, heq⟩
      · cases hdone

/-- A batch of more mutations than timestamps up to the largest one fails. -/
theorem exists_error_applyAll (hsound : state.Sound) (seed : Timestamp) {left : Nat}
    (hleft : state.mark.toNat + left = maxTimestamp.toNat) (hlength : left < batch.length) :
    ∃ e, state.applyAll seed batch = .error e := by
  cases happly : state.applyAll seed batch with
  | error e => exact ⟨e, rfl⟩
  | ok applied =>
    have hle := length_le_timesLeft hsound happly
    rw [timesLeft] at hle
    omega

end ScopeState

namespace SyncTables

variable {limits : Limits} {store : Store} {scope : Scope} {now : Timestamp} {call : SyncCall}
  {history : List Row} {batch : List Mutation} {e : SyncError}

/-- What a call on a scope plans. -/
def plan (limits : Limits) (store : Store) (scope : Scope) (now : Timestamp) (call : SyncCall) :
    Except SyncError (List Mutation) :=
  (store.state scope).plan limits now call

/-! ## Calls on a store and their plans -/

/-- A call succeeds just if its plan can be applied. -/
theorem exists_perform_eq_ok_iff (h : store.Sound) :
    (∃ reply, (perform limits store scope now call).1 = .ok reply) ↔
      ∃ batch applied, plan limits store scope now call = .ok batch ∧
        (store.state scope).applyAll (call.seed now) batch = .ok applied := by
  rw [(follows_perform h call).result]
  have hmap := ScopeState.map_snd_perform limits now (store.state scope) call
  constructor
  · rintro ⟨reply, hreply⟩
    obtain ⟨⟨told, after⟩, hok, -⟩ := map_eq_ok_iff.1 hreply
    obtain ⟨batch, rows, hplan, happly⟩ := ScopeState.plan_of_perform_eq_ok hok
    exact ⟨batch, (rows, after), hplan, happly⟩
  · rintro ⟨batch, applied, hplan, happly⟩
    rw [plan] at hplan
    rw [hplan] at hmap
    have hlast : ((store.state scope).perform limits now call).map Prod.snd = .ok applied.2 := by
      rw [hmap]
      show ((store.state scope).applyAll _ batch).map Prod.snd = _
      rw [happly]
      rfl
    obtain ⟨told, hok, -⟩ := map_eq_ok_iff.1 hlast
    exact ⟨told.1, by rw [hok]; rfl⟩

/-- A call fails just if it is refused or its plan cannot be applied, and in the same way. -/
theorem perform_eq_error_iff (h : store.Sound) :
    (perform limits store scope now call).1 = .error e ↔
      plan limits store scope now call = .error e ∨
        ∃ batch, plan limits store scope now call = .ok batch ∧
          (store.state scope).applyAll (call.seed now) batch = .error e := by
  rw [(follows_perform h call).result, map_eq_error_iff]
  exact ScopeState.perform_eq_error_iff

/-! ## Scopes without timestamps -/

/-- How calls on a store find a scope that has assigned the largest timestamp and to which the rows
of a history were written. -/
structure Exhausted (limits : Limits) (scope : Scope) (history : List Row) (store : Store) :
    Prop where
  /-- Just the calls that plan nothing succeed. -/
  succeeds_iff : ∀ now call, (∃ reply, (perform limits store scope now call).1 = .ok reply) ↔
    plan limits store scope now call = .ok []
  /-- A call that is refused elsewhere is refused here. -/
  refused : ∀ now call e, plan limits store scope now call = .error e →
    (perform limits store scope now call).1 = .error e
  /-- A call that plans something fails: if that begins with the deletion of a row that was never
  written, because there is no such row, and otherwise for want of a timestamp, which is a failure
  of the storage. -/
  fails : ∀ now call first rest, plan limits store scope now call = .ok (first :: rest) →
    (perform limits store scope now call).1 = .error
      (if first.isDelete ∧ first.rowId ∉ history.map Row.id then .rowNotFound first.rowId
        else .timestampsExhausted maxTimestamp)
  /-- No call on the scope changes the store. -/
  unchanged : ∀ now call, (perform limits store scope now call).2 = store

/-- A scope that has assigned the largest timestamp is exhausted. -/
theorem exhausted_of_mark (h : store.Sound) (hpopulated : store.Populated)
    (hhistory : (store.state scope).HasHistory history)
    (hmark : (store.state scope).mark = maxTimestamp) : Exhausted limits scope history store where
  succeeds_iff now call := by
    rw [exists_perform_eq_ok_iff h]
    constructor
    · rintro ⟨batch, applied, hplan, happly⟩
      cases batch with
      | nil => exact hplan
      | cons first rest =>
        rw [ScopeState.applyAll, ScopeState.apply_of_exhausted hmark] at happly
        cases happly
    · intro hplan
      exact ⟨[], _, hplan, rfl⟩
  refused now call e hplan := (perform_eq_error_iff h).2 (.inl hplan)
  fails now call first rest hplan := by
    refine (perform_eq_error_iff h).2 (.inr ⟨_, hplan, ?_⟩)
    rw [ScopeState.applyAll, ScopeState.apply_of_exhausted hmark]
    simp only [hhistory.get?_eq_none_iff]
    rfl
  unchanged now call := by
    have hfollows : store.Follows scope (perform limits store scope now call) _ :=
      follows_perform h call
    refine Store.ext_state hfollows.sound h
      (allOrNothing_perform hpopulated limits scope now call).populated hpopulated fun other => ?_
    by_cases hother : other = scope
    · subst hother
      exact (growsTo_perform h other call).eq_of_exhausted hmark
    · exact hfollows.others other hother

/-- Exhaustion absorbs and never overflows. After any run of calls, if the mark of a scope is the
largest timestamp, then in every further run, at whatever times, the table of the scope stays as it
is, and of the calls on it just those succeed that plan nothing. If the mark is at a distance from
the largest timestamp, a call that plans more mutations than that fails and leaves the store as it
was. And no call on the store computes a sum of timestamps that does not fit in a word. -/
theorem exhaustion_absorbs (hrun : Run limits scope store history) :
    ((store.table scope).highWater = maxTimestamp → ∀ after, RunsTo limits store after →
      after.table scope = store.table scope ∧ Exhausted limits scope history after) ∧
    (∀ left now call batch, (store.table scope).highWater.toNat + left = maxTimestamp.toNat →
      plan limits store scope now call = .ok batch → left < batch.length →
      ∃ e, perform limits store scope now call = (.error e, store) ∧
        (e = .timestampsExhausted maxTimestamp ∨
          ∃ id, .delete id ∈ batch ∧ e = .rowNotFound id)) ∧
    SumsFit limits store := by
  have hsound : store.Sound := sound_of_reachable hrun.reachable
  have hpopulated : store.Populated := RunsTo.populated hrun.reachable Store.populated_empty
  refine ⟨fun hmark after hafter => ?_, fun left now call batch hleft hplan hlength => ?_,
    sumsFit hsound limits⟩
  · -- The run makes the state grow, which it cannot do any more.
    have hstate : after.state scope = store.state scope :=
      (hafter.growsTo hsound scope).eq_of_exhausted hmark
    have hsound' : after.Sound := hafter.sound hsound
    refine ⟨(hsound' scope).ext (hsound scope) hstate, ?_⟩
    refine exhausted_of_mark hsound' (hafter.populated hpopulated) ?_ ?_
    · rw [hstate]
      exact hrun.hasHistory
    · rw [hstate]
      exact hmark
  · obtain ⟨e, he⟩ := ScopeState.exists_error_applyAll (hsound scope).state (call.seed now) hleft
      hlength
    have hfails : (perform limits store scope now call).1 = .error e :=
      (perform_eq_error_iff hsound).2 (.inr ⟨batch, hplan, he⟩)
    refine ⟨e, Prod.ext hfails ?_, ScopeState.applyAll_eq_error (hsound scope).state he⟩
    exact (allOrNothing_perform hpopulated limits scope now call).restored e hfails

/-- Limits under which any edit time in range may be claimed. -/
def anyClaim : Limits := { maxSkew := none }

/-- An edit with the largest timestamp as its claimed time. -/
def lastEdit : SyncCall := .putIfRecent "a" (sampleNote "last") maxTimestamp

/-- A store with one row, written at the largest timestamp. -/
def spentStore : Store := (perform anyClaim ∅ sampleScope 1000 lastEdit).2

/-- The rows written to the spent store. -/
def spentHistory : List Row := [⟨"a", sampleNote "last", maxTimestamp, false⟩]

theorem run_spentStore : Run anyClaim sampleScope spentStore spentHistory :=
  .call 1000 lastEdit .start

/-- The scope of the spent store stays as it is. A write fails for want of a timestamp, the deletion
of a row that was never written because there is no such row, and an exchange of which all mutations
give way succeeds. -/
theorem exhaustion_absorbs_sample :
    (∀ after, RunsTo anyClaim spentStore after →
      after.table sampleScope = spentStore.table sampleScope) ∧
    (∃ e, perform anyClaim spentStore sampleScope 2000 (.put "b" (sampleNote "more")) =
      (.error e, spentStore)) ∧
    (perform anyClaim spentStore sampleScope 2000 (.push [.delete "b", .delete "a"])).1 =
      .error (.rowNotFound "b") ∧
    (perform anyClaim spentStore sampleScope 2000 (.delete "a")).1 =
      .error (.timestampsExhausted maxTimestamp) ∧
    ∃ reply, (perform anyClaim spentStore sampleScope 2000 (.sync 0 [.delete "a"])).1 =
      .ok reply := by
  obtain ⟨hspent, hleft, -⟩ := exhaustion_absorbs run_spentStore
  have hmark : (spentStore.table sampleScope).highWater = maxTimestamp := by decide +kernel
  obtain ⟨-, hexhausted⟩ := hspent hmark spentStore .refl
  refine ⟨fun after hafter => (hspent hmark after hafter).1, ?_, ?_, ?_, ?_⟩
  · obtain ⟨e, he, -⟩ := hleft 0 2000 (.put "b" (sampleNote "more"))
      [.upsert "b" (sampleNote "more")] (by decide +kernel) (by decide +kernel) (by decide)
    exact ⟨e, he⟩
  · -- The first mutation decides, though the second one would fail as well.
    have hfails := hexhausted.fails 2000 (.push [.delete "b", .delete "a"]) (.delete "b")
      [.delete "a"] (by decide +kernel)
    exact hfails.trans (congrArg Except.error (if_pos (by decide)))
  · have hfails := hexhausted.fails 2000 (.delete "a") (.delete "a") [] (by decide +kernel)
    exact hfails.trans (congrArg Except.error (if_neg (by decide)))
  · exact (hexhausted.succeeds_iff 2000 (.sync 0 [.delete "a"])).2 (by decide +kernel)

end SyncTables

end RowSync
