import RowSync.Proofs.Database.History

/-!
# Timestamps over Whole Runs

The timestamps of a scope over a run of calls, in a store and in a database (`run_timestamps`).
Whatever the wall clock shows and whatever edit times are claimed, those assigned by the writes that
were committed increase from one to the next, also from one call to another, and are in range. Of
the stored rows no two have the same timestamp. The mark is the largest of those stored and the last
of those assigned, so that the clock, which is taken up from it, never goes back.
-/

namespace RowSync

/-- How the timestamps of a scope fit together: those assigned by the writes that were committed, in
the order of writing, those of the stored rows, and the mark. -/
structure Disciplined (assigned stored : List Timestamp) (mark : Timestamp) : Prop where
  /-- Every timestamp is ahead of those assigned before. -/
  increasing : assigned.Pairwise (· < ·)
  /-- Timestamps are in range, and zero is none. -/
  inRange : ∀ time ∈ assigned, 1 ≤ time ∧ time ≤ maxTimestamp
  /-- No two stored rows share a timestamp. -/
  distinct : stored.Nodup
  /-- The timestamps of the stored rows were assigned by writes. -/
  mem_assigned : ∀ time ∈ stored, time ∈ assigned
  /-- The mark is the largest timestamp stored, zero if there are no rows. -/
  mark_eq_largest : mark = stored.foldl max 0
  /-- The mark is the last timestamp assigned, zero if there was no write. -/
  mark_eq_last : mark = assigned.getLast?.getD 0

/-- The rows written to a scope, the rows that it has and its mark fit together. -/
theorem ScopeState.HasHistory.disciplined {state : ScopeState} {history : List Row}
    (h : state.HasHistory history) :
    Disciplined (history.map Row.modifiedAt) (state.rows.values.map Row.modifiedAt) state.mark where
  increasing := List.pairwise_map.2 h.fresh.ordered
  inRange := by
    intro time htime
    obtain ⟨row, hrow, rfl⟩ := List.mem_map.1 htime
    -- The mark of a scope that was never written is zero, and all writes are ahead of it.
    have hpositive : (0 : Timestamp) < row.modifiedAt := h.fresh.ahead row hrow
    rw [UInt64.lt_iff_toNat_lt] at hpositive
    exact ⟨UInt64.le_iff_toNat_le.2 hpositive, h.fresh.inRange row hrow⟩
  distinct := List.pairwise_map.2 h.sound.pairwise_values
  mem_assigned := by
    intro time htime
    obtain ⟨row, hrow, rfl⟩ := List.mem_map.1 htime
    exact List.mem_map_of_mem (h.mem_of_get? (h.sound.mem_values_iff.1 hrow))
  mark_eq_largest := by
    rw [List.foldl_map]
    refine (foldl_max_modifiedAt UInt64.zero_le ?_ ?_).symm
    · intro row hrow
      exact h.sound.le_mark (h.sound.mem_values_iff.1 hrow)
    · rcases h.sound.reached with hzero | ⟨id, row, hget, htime⟩
      · exact .inl hzero.symm
      · exact .inr ⟨row, OrderedMap.mem_values_iff.2 ⟨id, hget⟩, htime⟩
  mark_eq_last := by
    rw [h.eq_putAll, mark_putAll]
    rfl

/-! ## What a store and a database show -/

/-- The timestamps of the rows of a scope, tombstones included. -/
def Store.storedTimes (store : Store) (scope : Scope) : List Timestamp :=
  (store.table scope).rows.values.map Row.modifiedAt

namespace Database

variable {db : Database} {scope : Scope} {state : ScopeState}

/-- The timestamps of the rows of a scope, tombstones included. -/
def storedTimes (db : Database) (scope : Scope) : List Timestamp :=
  (Tables.ofScope db.tables.syncRows scope).map fun columns =>
    StoredRow.timestamp columns.2.modifiedAt

/-- The timestamp from which a transaction on a scope takes up its clock. -/
def mark (db : Database) (scope : Scope) : Timestamp :=
  StoredRow.timestamp ((Statement.highWater scope).eval db.tables).1

/-- The columns of the rows tell their timestamps. -/
theorem Records.storedTimes_eq (h : Records db.tables scope state) :
    db.storedTimes scope = state.rows.values.map Row.modifiedAt := by
  rw [storedTimes, h.ofScope_eq, List.map_map]
  refine List.map_congr_left fun row hrow => ?_
  have hle : row.modifiedAt ≤ state.mark := h.sound.le_mark (h.sound.mem_values_iff.1 hrow)
  exact timestamp_toInt64 (UInt64.le_trans hle h.sound.mark_le)

theorem Records.mark_eq (h : Records db.tables scope state) : db.mark scope = state.mark := by
  rw [mark, h.eval_highWater]
  exact timestamp_toInt64 h.sound.mark_le

end Database

/-! ## Runs -/

/-- The timestamps of a scope fit together after every run of calls on any scopes, in a store as in
a database, and no further call on any scope makes the mark go back. -/
theorem run_timestamps (limits : Limits) (scope : Scope) :
    (∀ store history, SyncTables.Run limits scope store history →
      Disciplined (history.map Row.modifiedAt) (store.storedTimes scope)
        (store.table scope).highWater ∧
      ∀ other now call, (store.table scope).highWater ≤
        ((SyncTables.perform limits store other now call).2.table scope).highWater) ∧
    ∀ db history, Database.Run limits scope db history →
      Disciplined (history.map Row.modifiedAt) (db.storedTimes scope) (db.mark scope) ∧
      ∀ other now call, db.mark scope ≤
        (Database.performSync limits other now call db).2.mark scope := by
  refine ⟨?_, ?_⟩
  · intro store history hrun
    refine ⟨hrun.hasHistory.disciplined, ?_⟩
    intro other now call
    -- The mark of a table is that of its state, which grows by any call.
    have hsound : store.Sound := SyncTables.sound_of_reachable hrun.reachable
    exact (SyncTables.growsTo_perform hsound other call).mark_le_mark
  · intro db history hrun
    obtain ⟨state, hrecords, hhistory⟩ := hrun.records
    refine ⟨?_, ?_⟩
    · rw [hrecords.storedTimes_eq, hrecords.mark_eq]
      exact hhistory.disciplined
    · intro other now call
      obtain ⟨state', hother⟩ := hrun.sound other
      obtain ⟨hfresh, hafter, helse⟩ := hother.performSync limits now call
      by_cases heq : scope = other
      · -- The call puts fresh rows, whose timestamps are ahead of the mark.
        subst heq
        rw [hother.mark_eq, hafter.mark_eq]
        exact hfresh.mark_le_mark
      · have hkept : Database.Records
            (Database.performSync limits other now call db).2.tables scope state :=
          hrecords.of_scopeRows_eq (helse scope heq)
        rw [hrecords.mark_eq, hkept.mark_eq]
        exact UInt64.le_refl _

/-- A batch that writes a row twice. -/
def rewritingBatch : List Mutation := [.upsert "a" (SyncTables.sampleNote "first"), .delete "a"]

/-- A store in which the batch was applied at 1000, and another row was written when the wall clock
had gone back to zero. -/
def rewrittenStore : Store :=
  (SyncTables.perform {} (SyncTables.perform {} ∅ SyncTables.sampleScope 1000
    (.push rewritingBatch)).2 SyncTables.sampleScope 0 (.put "b" (SyncTables.sampleNote "other"))).2

/-- A database in which the batch was applied at 1000. -/
def rewrittenDatabase : Database :=
  (Database.performSync {} SyncTables.sampleScope 1000 (.push rewritingBatch) ∅).2

/-- Three timestamps are assigned in the store and two in the database, also that of a write over
which another was made; the mark is the last of them. -/
theorem run_timestamps_sample :
    (Disciplined [1000, 1001, 1002] [1001, 1002] 1002 ∧
      (rewrittenStore.table SyncTables.sampleScope).highWater = 1002) ∧
    Disciplined [1000, 1001] [1001] 1001 ∧
      rewrittenDatabase.mark SyncTables.sampleScope = 1001 := by
  obtain ⟨hstore, hdatabase⟩ := run_timestamps {} SyncTables.sampleScope
  have hrun : SyncTables.Run {} SyncTables.sampleScope rewrittenStore _ :=
    .call 0 (.put "b" (SyncTables.sampleNote "other")) (.call 1000 (.push rewritingBatch) .start)
  have hempty : (∅ : Database).tables.syncRows = ∅ := rfl
  have hrun' : Database.Run {} SyncTables.sampleScope rewrittenDatabase _ :=
    .call 1000 (.push rewritingBatch) (.start hempty)
  have hmark : (rewrittenStore.table SyncTables.sampleScope).highWater = 1002 := by decide +kernel
  have hmark' : rewrittenDatabase.mark SyncTables.sampleScope = 1001 := by decide +kernel
  have hassigned : ([] ++ Database.rowsWritten {} ∅ SyncTables.sampleScope 1000
      (.push rewritingBatch)).map Row.modifiedAt = [1000, 1001] := by decide +kernel
  have hstored : rewrittenDatabase.storedTimes SyncTables.sampleScope = [1001] := by decide +kernel
  obtain ⟨hdisciplined, -⟩ := hstore _ _ hrun
  obtain ⟨hdisciplined', -⟩ := hdatabase _ _ hrun'
  rw [hmark] at hdisciplined
  rw [hassigned, hstored, hmark'] at hdisciplined'
  exact ⟨⟨hdisciplined, hmark⟩, hdisciplined', hmark'⟩

end RowSync
