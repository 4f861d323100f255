import RowSync.Proofs.Reconcile
import RowSync.Proofs.SyncTables

/-!
# Exchange of Changes

What an exchange does for any reachable store, any baseline that is not ahead of the scope and any
batch that is let in (`ScopeState.Exchanged`). The rows that changed after the baseline win: they
stay as they are, are told, and are named as conflicts if the batch names them. All other mutations
are applied in order, or the first that fails makes the exchange fail.
-/

namespace RowSync

namespace ScopeState

variable {limits : Limits} {now base : Timestamp} {before after : ScopeState}
  {batch : List Mutation} {seen rows : List Row} {report : SyncReport}

/-- What an exchange does that succeeds, where the given rows are those changed after the baseline.
-/
structure Exchanged (before after : ScopeState) (batch : List Mutation) (seen : List Row)
    (report : SyncReport) : Prop where
  /-- Rows changed after the baseline are stored as they were. -/
  kept : ∀ row ∈ seen, after.get? row.id = some row
  /-- Any other row that the batch names is what its own mutations make of it, one after the
  other, and is ahead of the rows of before. -/
  written : ∀ id ∈ batch.map Mutation.rowId, id ∉ seen.map Row.id →
    ∃ row, after.get? id = some row ∧ before.mark < row.modifiedAt ∧
      some row.content = (batch.filter fun mutation => mutation.rowId = id).foldl Mutation.effect
        ((before.get? id).map Row.content)
  /-- A row that the batch does not name is stored as it was. -/
  untouched : ∀ id, id ∉ batch.map Mutation.rowId → after.get? id = before.get? id
  /-- The conflicts are the rows changed after the baseline that the batch names. -/
  mem_conflicts : ∀ id, id ∈ report.conflicts ↔
    id ∈ batch.map Mutation.rowId ∧ id ∈ seen.map Row.id
  /-- The conflicts stand in the order in which the batch first names them, each once. -/
  conflicts_inOrder : report.conflicts.Pairwise fun a b =>
    (batch.map Mutation.rowId).idxOf a < (batch.map Mutation.rowId).idxOf b
  /-- Told are the rows changed after the baseline, then the rows written as they are now, both in
  the order of their timestamps. -/
  changes : ∃ last, report.changes = seen ++ last ∧ LogOrdered report.changes ∧
    ∀ row, row ∈ last ↔
      after.get? row.id = some row ∧ row.id ∈ batch.map Mutation.rowId ∧ row.id ∉ seen.map Row.id
  /-- No row is told twice. -/
  nodup_changes : (report.changes.map Row.id).Nodup
  /-- The new baseline is the mark. -/
  newTimestamp : report.newTimestamp = after.mark

/-- An exchange of a batch that is let in fails just as applying its accepted mutations fails. -/
theorem sync_eq_error_iff (hbatch : limits.checkBatch batch = .ok ()) {e : SyncError} :
    before.sync limits now base batch = .error e ↔
      before.applyAll now (batch.filter fun mutation =>
        mutation.rowId ∉ (before.changesAfter base).map Row.id) = .error e := by
  rw [sync, hbatch, ← accepted_splitBatch]
  show (before.applyAll now (splitBatch (before.changesAfter base) batch).accepted >>= _) = _ ↔ _
  cases before.applyAll now (splitBatch (before.changesAfter base) batch).accepted with
  | ok applied => simp [bind, Except.bind, pure, Except.pure]
  | error cause => simp [bind, Except.bind]

/-- The rows that changed after the baseline, after accepted mutations were applied: those of
before, and then those written. -/
theorem changesAfter_putAll (hsound : before.Sound) (hbase : base ≤ before.mark)
    (hfresh : before.Fresh rows)
    (hids : ∀ id ∈ rows.map Row.id, id ∉ (before.changesAfter base).map Row.id) :
    (before.putAll rows).changesAfter base =
      before.changesAfter base ++ (before.putAll rows).changesAfter before.mark := by
  have hafter : (before.putAll rows).Sound := hsound.putAll hfresh
  symm
  refine hafter.eq_changesAfter ?_ fun row => ?_
  · refine LogOrdered.append hsound.logOrdered_changesAfter hafter.logOrdered_changesAfter ?_
    -- The rows of before are up to the mark of then, the rows written are ahead of it.
    intro row hrow other hother
    rw [hsound.mem_changesAfter_iff] at hrow
    rw [hafter.mem_changesAfter_iff] at hother
    exact UInt64.lt_of_le_of_lt (hsound.le_mark hrow.1) hother.2
  · rw [List.mem_append, hsound.mem_changesAfter_iff, hafter.mem_changesAfter_iff]
    constructor
    · rintro (⟨hget, htime⟩ | ⟨hget, htime⟩)
      · -- A row changed after the baseline is not written by the exchange, so it is as before.
        have hid : row.id ∉ rows.map Row.id := fun hmem =>
          hids row.id hmem (List.mem_map_of_mem (hsound.mem_changesAfter_iff.2 ⟨hget, htime⟩))
        exact ⟨(get?_putAll_of_notMem hid).trans hget, htime⟩
      · exact ⟨hget, UInt64.lt_of_le_of_lt hbase htime⟩
    · rintro ⟨hget, htime⟩
      -- A row found after the writes is one of them, and ahead, or was there before.
      rcases get?_putAll_cases hget with hmem | ⟨-, hbefore⟩
      · exact .inr ⟨hget, hfresh.ahead row hmem⟩
      · exact .inl ⟨hbefore, htime⟩

/-- The rows that are ahead after writes are those that were written. -/
theorem mem_changesAfter_mark_iff (hsound : before.Sound) (hfresh : before.Fresh rows) {row : Row} :
    row ∈ (before.putAll rows).changesAfter before.mark ↔
      (before.putAll rows).get? row.id = some row ∧ row.id ∈ rows.map Row.id := by
  rw [(hsound.putAll hfresh).mem_changesAfter_iff]
  refine and_congr_right fun hget => ⟨fun hlt => ?_, fun hmem => ?_⟩
  · -- A row that was there before is not ahead of the mark of then.
    rcases get?_putAll_cases hget with hmem | ⟨-, hbefore⟩
    · exact List.mem_map_of_mem hmem
    · exact absurd (hsound.le_mark hbefore) (UInt64.not_le.2 hlt)
  · obtain ⟨last, hlast, -, hfound⟩ := exists_get?_putAll before hmem
    rw [hget] at hfound
    cases hfound
    exact hfresh.ahead row hlast

/-- An exchange tells the rows changed after the baseline, with those just written. -/
theorem report_sync (h : before.sync limits now base batch = .ok (report, after)) :
    report = (SyncReport.ofChanges base (after.changesAfter base)).withConflicts
      (splitBatch (before.changesAfter base) batch).conflicts := by
  obtain ⟨_, -, h⟩ := bind_eq_ok_iff.1 h
  obtain ⟨_, -, h⟩ := bind_eq_ok_iff.1 h
  cases h
  rfl

/-- An exchange that succeeds does all that is expected of it. -/
theorem sync_eq_ok (hsound : before.Sound) (hbase : base ≤ before.mark)
    (h : before.sync limits now base batch = .ok (report, after)) :
    Exchanged before after batch (before.changesAfter base) report := by
  obtain ⟨_, -, h⟩ := bind_eq_ok_iff.1 h
  obtain ⟨⟨rows, last⟩, happly, h⟩ := bind_eq_ok_iff.1 h
  cases h
  obtain ⟨hids, rfl, hfresh⟩ := applyAll_eq_ok hsound happly
  have hafter : (before.putAll rows).Sound := hsound.putAll hfresh
  rw [accepted_splitBatch] at hids happly
  -- The rows written are those that the batch names and that did not change after the baseline.
  have hmem (id : RowId) : id ∈ rows.map Row.id ↔
      id ∈ batch.map Mutation.rowId ∧ id ∉ (before.changesAfter base).map Row.id := by
    rw [hids]
    simp only [List.mem_map, List.mem_filter, decide_eq_true_eq]
    grind
  have hchanges := changesAfter_putAll hsound hbase hfresh fun id hid => ((hmem id).1 hid).2
  exact
    { kept := fun row hrow => by
        -- A row that was seen is not written.
        have hid : row.id ∉ rows.map Row.id := fun hid =>
          ((hmem row.id).1 hid).2 (List.mem_map_of_mem hrow)
        rw [get?_putAll_of_notMem hid]
        exact (hsound.mem_changesAfter_iff.1 hrow).1
      written := fun id hid hseen => by
        obtain ⟨row, hrow, -, hget⟩ := exists_get?_putAll before ((hmem id).2 ⟨hid, hseen⟩)
        refine ⟨row, hget, hfresh.ahead row hrow, ?_⟩
        have hcontent := content_applyAll hsound happly id
        -- Of the accepted mutations those of this row are all that the batch has of it.
        rw [hget, List.filter_filter] at hcontent
        refine hcontent.trans (congrArg (List.foldl Mutation.effect _) ?_)
        refine List.filter_congr fun mutation _ => ?_
        by_cases hsame : mutation.rowId = id
        · simp [hsame, hseen]
        · simp [hsame]
      untouched := fun id hid => get?_putAll_of_notMem fun hrow => hid ((hmem id).1 hrow).1
      mem_conflicts := fun id => mem_conflicts_iff
      conflicts_inOrder := pairwise_conflicts _ _
      changes := by
        refine ⟨_, hchanges, hafter.logOrdered_changesAfter, fun row => ?_⟩
        rw [mem_changesAfter_mark_iff hsound hfresh, hmem]
      nodup_changes := hafter.nodup_changesAfter
      newTimestamp :=
        hafter.newTimestamp_ofChanges (UInt64.le_trans hbase hfresh.mark_le_mark) }

end ScopeState

namespace SyncTables

variable {limits : Limits} {store : Store} {base : Timestamp} {batch : List Mutation}

/-- An exchange with a store that succeeds is one with the state of its scope. -/
theorem sync_of_result {scope : Scope} {now : Timestamp} {report : SyncReport}
    (hsound : store.Sound) (hsync : (sync limits store scope now base batch).1 = .ok report) :
    (store.state scope).sync limits now base batch =
      .ok (report, (sync limits store scope now base batch).2.state scope) :=
  (follows_sync hsound base batch).eq_ok hsync

/-- An exchange with a reachable store, from a baseline that is not ahead of the scope and with a
batch that is let in, fails just as applying the mutations of unchanged rows fails, and otherwise
lets the rows changed after the baseline win, applies all other mutations in order, and tells all
of it. -/
theorem sync_contract (hreach : Reachable limits store) (scope : Scope) (now : Timestamp)
    (hbase : base ≤ (store.state scope).mark) (hbatch : limits.checkBatch batch = .ok ()) :
    ∃ seen, LogOrdered seen ∧
      (∀ row, row ∈ seen ↔
        (store.state scope).get? row.id = some row ∧ base < row.modifiedAt) ∧
      (∀ e, (sync limits store scope now base batch).1 = .error e ↔
        (Transaction.start (store.table scope) now).applyAll
          (batch.filter fun mutation => mutation.rowId ∉ seen.map Row.id) = .error e) ∧
      ∀ report, (sync limits store scope now base batch).1 = .ok report →
        ScopeState.Exchanged (store.state scope)
          ((sync limits store scope now base batch).2.state scope) batch seen report := by
  have hstore : store.Sound := sound_of_reachable hreach
  have hstate : (store.state scope).Sound := (hstore scope).state
  have hfollows : store.Follows scope (sync limits store scope now base batch) _ :=
    follows_sync hstore base batch
  have hresult := hfollows.result
  have hsettled := hfollows.state
  -- The rows changed after the baseline are those of the change log.
  refine ⟨(store.state scope).changesAfter base, hstate.logOrdered_changesAfter,
    fun row => hstate.mem_changesAfter_iff, fun e => ?_, fun report hreport => ?_⟩
  · have happly := (Transaction.sound_start (hstore scope) now).follows_applyAll
      (batch.filter fun mutation =>
        mutation.rowId ∉ ((store.state scope).changesAfter base).map Row.id)
    rw [hresult]
    calc (((store.state scope).sync limits now base batch).map Prod.fst = .error e)
        ↔ (store.state scope).sync limits now base batch = .error e := map_eq_error_iff
      _ ↔ _ := ScopeState.sync_eq_error_iff hbatch
      _ ↔ _ := happly.eq_error_iff.symm
  · rw [hresult] at hreport
    obtain ⟨⟨told, after⟩, hsync, rfl⟩ := map_eq_ok_iff.1 hreport
    rw [hsettled, hsync]
    exact ScopeState.sync_eq_ok hstate hbase hsync

/-- A batch that writes one of the sample rows, deletes the other, and deletes the first one again.
-/
def sampleBatch : List Mutation :=
  [.upsert "a" (sampleNote "edited"), .delete "b", .delete "a"]

/-- What is told of the sample batch to a client that has not seen the second row. -/
def sampleReport : SyncReport where
  newTimestamp := 2002
  changes := [⟨"b", sampleNote "other", 2000, false⟩, ⟨"a", sampleNote "edited", 2002, true⟩]
  conflicts := ["b"]

/-- The sample batch is exchanged as stated, though the wall clock was set back. -/
theorem sync_contract_sample :
    (sync {} sampleStore sampleScope 500 1000 sampleBatch).1 = .ok sampleReport ∧
      ∃ seen, (∀ row, row ∈ seen ↔
        (sampleStore.state sampleScope).get? row.id = some row ∧ 1000 < row.modifiedAt) ∧
        ScopeState.Exchanged (sampleStore.state sampleScope)
          ((sync {} sampleStore sampleScope 500 1000 sampleBatch).2.state sampleScope) sampleBatch
          seen sampleReport := by
  have htold : (sync {} sampleStore sampleScope 500 1000 sampleBatch).1 = .ok sampleReport := by
    decide +kernel
  have hbase : (1000 : Timestamp) ≤ (sampleStore.state sampleScope).mark := by decide
  have hbatch : Limits.checkBatch {} sampleBatch = .ok () := rfl
  obtain ⟨seen, -, hseen, -, hexchanged⟩ :=
    sync_contract reachable_sampleStore sampleScope 500 hbase hbatch
  exact ⟨htold, seen, hseen, hexchanged sampleReport htold⟩

end SyncTables

end RowSync
