import RowSync.Proofs.Exchange
import RowSync.Proofs.Runs
import RowSync.Proofs.StoreScopes

/-!
# Exchanges Made Again

An exchange that succeeded may be made again, for instance by a client that did not get the answer.
All rows of its batch have changed after the baseline by then (`ScopeState.rows_changed`), so that
all of its mutations give way, and an exchange without accepted mutations leaves the store as it is,
down to the scopes that are kept (`SyncTables.sync_of_changed`). So the exchange can be made any
number of times, and its answers differ from the first one only in the conflicts, which are all
rows of the batch (`SyncTables.retries_harmless`).
-/

namespace RowSync

/-- A batch of rows that all changed is not applied, and all of its rows are conflicts. -/
theorem splitBatch_of_changed {changes : List Row} {batch : List Mutation}
    (h : ∀ id ∈ batch.map Mutation.rowId, id ∈ changes.map Row.id) :
    splitBatch changes batch = ⟨[], (batch.map Mutation.rowId).eraseDups⟩ := by
  have haccepted : (splitBatch changes batch).accepted = [] := by
    rw [accepted_splitBatch, List.filter_eq_nil_iff]
    intro mutation hmem
    simpa using h mutation.rowId (List.mem_map_of_mem hmem)
  have htouched : (batch.map Mutation.rowId).filter (isTouched changes) =
      batch.map Mutation.rowId :=
    List.filter_eq_self.2 fun id hid => isTouched_iff.2 (h id hid)
  calc splitBatch changes batch
      = ⟨(splitBatch changes batch).accepted, (splitBatch changes batch).conflicts⟩ := rfl
    _ = ⟨[], (batch.map Mutation.rowId).eraseDups⟩ := by
      rw [haccepted, splitBatch, htouched]

namespace ScopeState

variable {limits : Limits} {now base : Timestamp} {before after : ScopeState}
  {batch : List Mutation} {report : SyncReport}

/-- After an exchange all rows of its batch have changed after the baseline. -/
theorem rows_changed (hsound : before.Sound) (hbase : base ≤ before.mark ∨ batch = [])
    (h : before.sync limits now base batch = .ok (report, after)) :
    ∀ id ∈ batch.map Mutation.rowId, id ∈ (after.changesAfter base).map Row.id := by
  rcases hbase with hbase | rfl
  · intro id hid
    have hafter : after.Sound := hsound.of_growsTo (growsTo_of_sync hsound h)
    have hexchanged := sync_eq_ok hsound hbase h
    rw [List.mem_map]
    by_cases hseen : id ∈ (before.changesAfter base).map Row.id
    · -- A row that was seen to have changed is as it was.
      obtain ⟨row, hrow, rfl⟩ := List.mem_map.1 hseen
      have htime : base < row.modifiedAt := (hsound.mem_changesAfter_iff.1 hrow).2
      exact ⟨row, hafter.mem_changesAfter_iff.2 ⟨hexchanged.kept row hrow, htime⟩, rfl⟩
    · -- Any other row was written, ahead of the mark and so of the baseline.
      obtain ⟨row, hget, hahead, -⟩ := hexchanged.written id hid hseen
      have hrow : row.id = id := hafter.keyed hget
      subst hrow
      have htime : base < row.modifiedAt := UInt64.lt_of_le_of_lt hbase hahead
      exact ⟨row, hafter.mem_changesAfter_iff.2 ⟨hget, htime⟩, rfl⟩
  · simp

/-- An exchange that succeeds had a batch that is let in. -/
theorem checkBatch_of_sync (h : before.sync limits now base batch = .ok (report, after)) :
    limits.checkBatch batch = .ok () := by
  obtain ⟨_, hcheck, -⟩ := bind_eq_ok_iff.1 h
  exact hcheck

end ScopeState

namespace SyncTables

variable {limits : Limits} {store later : Store} {scope : Scope} {now base : Timestamp}
  {batch : List Mutation} {report : SyncReport}

/-- An exchange of a batch of rows that all changed after the baseline tells the changes, names all
rows of the batch as conflicts, and leaves the store as it is. -/
theorem sync_of_changed (hsound : store.Sound) (hpopulated : store.Populated)
    (hbatch : limits.checkBatch batch = .ok ())
    (h : ∀ id ∈ batch.map Mutation.rowId,
      id ∈ ((store.state scope).changesAfter base).map Row.id) (now : Timestamp) :
    sync limits store scope now base batch =
      (.ok ((SyncReport.ofChanges base ((store.state scope).changesAfter base)).withConflicts
        (batch.map Mutation.rowId).eraseDups), store) := by
  have hchanges : (Transaction.start (store.table scope) now).changesAfter base =
      (store.state scope).changesAfter base :=
    (Transaction.sound_start (hsound scope) now).changesAfter_eq base
  -- Nothing is staged, and the table is put back as it was taken out.
  have hcommit : (Transaction.start (store.table scope) now).commit = store.table scope := rfl
  simp only [sync, Store.guarded, hbatch, Store.transact, hchanges, splitBatch_of_changed h,
    Transaction.applyAll, bind, Except.bind, pure, Except.pure, hcommit,
    hpopulated.settle_table scope]

/-- An exchange without mutations tells the changes after the baseline, and leaves the store as it
is, without a table for a scope that had none. -/
theorem sync_nil (hsound : store.Sound) (hpopulated : store.Populated) (limits : Limits)
    (scope : Scope) (now base : Timestamp) :
    sync limits store scope now base [] = (.ok (changesSince store scope base), store) := by
  rw [sync_of_changed hsound hpopulated rfl (by simp) now, changesSince,
    (hsound scope).rowsAfter_eq]
  rfl

/-- Retries are harmless. After an exchange that succeeded, from a baseline that is not ahead of the
scope or without mutations, the same exchange can be made any number of times and at any times,
while the scope is not written otherwise: each time it tells the same changes and the same baseline,
names all rows of the batch as conflicts, once each and in the order in which the batch first names
them, and leaves the store as it is. Without mutations that holds of the first time, too, and what
is told are the changes after the baseline. -/
theorem retries_harmless (hreach : Reachable limits store)
    (hbase : base ≤ (store.state scope).mark ∨ batch = [])
    (hfirst : (sync limits store scope now base batch).1 = .ok report)
    (hrun : RunsTo limits (sync limits store scope now base batch).2 later)
    (hquiet : later.state scope = (sync limits store scope now base batch).2.state scope)
    (times : List Timestamp) :
    runAll (fun store time => sync limits store scope time base batch) later times =
        (times.map fun _ => .ok (report.withConflicts (batch.map Mutation.rowId).eraseDups),
          later) ∧
      ((batch.map Mutation.rowId).eraseDups.Pairwise fun a b =>
        (batch.map Mutation.rowId).idxOf a < (batch.map Mutation.rowId).idxOf b) ∧
      (batch = [] → sync limits store scope now base batch =
        (.ok (changesSince store scope base), store)) := by
  have hstore : store.Sound := sound_of_reachable hreach
  have hpopulated : store.Populated := RunsTo.populated hreach Store.populated_empty
  have hfollows : store.Follows scope (sync limits store scope now base batch) _ :=
    follows_sync hstore base batch
  -- The first exchange is a call, too, and so the invariants hold of the later store.
  have hreach' : RunsTo limits store (sync limits store scope now base batch).2 :=
    .call scope now (.sync base batch) .refl
  have hlater : later.Sound := hrun.sound hfollows.sound
  have hlater' : later.Populated := hrun.populated (hreach'.populated hpopulated)
  have hsync := sync_of_result hstore hfirst
  have hchanged := ScopeState.rows_changed (hstore scope).state hbase hsync
  have hbatch := ScopeState.checkBatch_of_sync hsync
  refine ⟨?_, ?_, ?_⟩
  · rw [← hquiet] at hsync hchanged
    rw [ScopeState.report_sync hsync]
    exact runAll_of_fixed (fun time => sync_of_changed hlater hlater' hbatch hchanged time) times
  · have hordered := pairwise_eraseDups_filter (batch.map Mutation.rowId) fun _ => true
    rwa [List.filter_true] at hordered
  · rintro rfl
    exact sync_nil hstore hpopulated limits scope now base

/-- The sample store after the sample batch was exchanged with the wall clock set back, and a row of
another scope was written. -/
def exchangedStore : Store :=
  (perform {} (sync {} sampleStore sampleScope 500 1000 sampleBatch).2 ⟨"notes", "bob"⟩ 3000
    (.put "a" (sampleNote "elsewhere"))).2

/-- The exchange is made twice more, once with the wall clock ahead and once with it set back. -/
theorem retries_harmless_sample :
    (sync {} sampleStore sampleScope 500 1000 sampleBatch).1 = .ok sampleReport ∧
      runAll (fun store time => sync {} store sampleScope time 1000 sampleBatch) exchangedStore
          [9000, 0] =
        ([.ok (sampleReport.withConflicts ["a", "b"]), .ok (sampleReport.withConflicts ["a", "b"])],
          exchangedStore) := by
  have hfirst : (sync {} sampleStore sampleScope 500 1000 sampleBatch).1 = .ok sampleReport := by
    decide +kernel
  have hbase : (1000 : Timestamp) ≤ (sampleStore.state sampleScope).mark := by decide
  have hrun : RunsTo {} (sync {} sampleStore sampleScope 500 1000 sampleBatch).2 exchangedStore :=
    .call ⟨"notes", "bob"⟩ 3000 _ .refl
  have hquiet : exchangedStore.state sampleScope =
      (sync {} sampleStore sampleScope 500 1000 sampleBatch).2.state sampleScope := by
    decide +kernel
  obtain ⟨hretries, -, -⟩ :=
    retries_harmless reachable_sampleStore (.inl hbase) hfirst hrun hquiet [9000, 0]
  exact ⟨hfirst, hretries⟩

end SyncTables

end RowSync
