import RowSync.Proofs.Script.Transaction
import RowSync.Proofs.StagedReads

/-!
# The Rows and the Index of a Table

Each table keeps its rows, an index of them by time, and a clock, which are updated apart from each
other when rows are committed and removed. They fit together in every store that is only used by
its operations (`Store.Constructed.table_intact`): the index lists each row once, all timestamps are
different and between one and the mark, and the rows changed after a time are listed completely,
once each, in the order of the change log (`Table.Intact`). Stores of sync tables and of local
tables are used in no other way (`SyncTables.RunsTo.constructed`,
`LocalTables.Reachable.constructed`).
-/

namespace RowSync

/-- A change key with an earlier time comes first. -/
theorem ChangeKey.compare_of_time_lt {a b : ChangeKey} (h : a.time < b.time) :
    compare a b = .lt := by
  show (compare a.time b.time).then (compare a.id b.id) = .lt
  rw [Std.compare_eq_lt.2 h]
  rfl

namespace Table

variable {table : Table} {row : Row} {time : Timestamp}

/-- The rows, the index and the clock of a table fit together. -/
structure Intact (table : Table) : Prop where
  /-- Rows stand under their own ids. -/
  keyed : ∀ {id row}, table.rows.get? id = some row → row.id = id
  /-- The index has one entry for each row, and no others. -/
  index_perm : table.index.keys.Perm (table.rows.values.map fun row => ⟨row.modifiedAt, row.id⟩)
  /-- No two rows share a timestamp. -/
  distinct : (table.rows.values.map Row.modifiedAt).Nodup
  /-- Timestamps are not zero and not ahead of the mark. -/
  inRange : ∀ row ∈ table.rows.values, 1 ≤ row.modifiedAt ∧ row.modifiedAt ≤ table.highWater
  /-- The mark is in range. -/
  highWater_le : table.highWater ≤ maxTimestamp
  /-- The rows changed after a time are listed once each, and no others. -/
  rowsAfter_perm : ∀ time, (table.rowsAfter time).Perm
    (table.rows.values.filter fun row => time < row.modifiedAt)
  /-- They are listed in the strict order of their timestamps and ids. -/
  rowsAfter_ordered : ∀ time, (table.rowsAfter time).Pairwise fun a b =>
    compare a.changeKey b.changeKey = .lt
  /-- All rows were changed after the time zero. -/
  rowsAfter_zero : (table.rowsAfter 0).Perm table.rows.values

/-- The index lists the change key of each row once. -/
theorem Sound.index_perm (h : table.Sound) :
    table.index.keys.Perm (table.rows.values.map Row.changeKey) := by
  -- Neither list has a key twice, so that it is enough that they have the same keys.
  refine (List.perm_ext_iff_of_nodup ?_ ?_).2 fun key => ?_
  · exact OrderedMap.pairwise_keys.imp fun hlt heq => by simp [heq] at hlt
  · refine List.pairwise_map.2 (h.state.pairwise_values.imp fun hne heq => hne ?_)
    exact congrArg ChangeKey.time heq
  · rw [h.indexed.mem_keys_iff, List.mem_map]
    constructor
    · rintro ⟨row, hget, hkey⟩
      exact ⟨row, OrderedMap.mem_values_iff.2 ⟨key.id, hget⟩, hkey⟩
    · rintro ⟨row, hrow, rfl⟩
      exact ⟨row, h.state.mem_values_iff.1 hrow, rfl⟩

/-- The rows changed after a time are listed once each, and no others. -/
theorem Sound.rowsAfter_perm (h : table.Sound) (time : Timestamp) :
    (table.rowsAfter time).Perm (table.rows.values.filter fun row => time < row.modifiedAt) := by
  have hnodup {rows : List Row} (hrows : rows.Pairwise fun a b => a.modifiedAt ≠ b.modifiedAt) :
      rows.Nodup :=
    hrows.imp fun hne heq => hne (congrArg Row.modifiedAt heq)
  refine (List.perm_ext_iff_of_nodup (hnodup ?_) (hnodup ?_)).2 fun row => ?_
  · have hordered : (table.rowsAfter time).Pairwise fun a b => a.modifiedAt < b.modifiedAt :=
      h.logOrdered_rowsAfter
    exact hordered.imp UInt64.ne_of_lt
  · exact h.state.pairwise_values.filter _
  · have hvalues : row ∈ table.rows.values ↔ table.get? row.id = some row :=
      h.state.mem_values_iff
    rw [h.mem_rowsAfter_iff, List.mem_filter, hvalues, decide_eq_true_eq]

/-- All rows of a sound table were changed after the time zero. -/
theorem Sound.rowsAfter_zero_perm (h : table.Sound) :
    (table.rowsAfter 0).Perm table.rows.values := by
  have hall : table.rows.values.filter (fun row => (0 : Timestamp) < row.modifiedAt) =
      table.rows.values :=
    List.filter_eq_self.2 fun row hrow =>
      decide_eq_true (h.state.positive (h.state.mem_values_iff.1 hrow))
  have hperm := h.rowsAfter_perm 0
  rwa [hall] at hperm

/-- The rows, the index and the clock of a regular table fit together. -/
theorem Regular.intact (h : table.Regular) : table.Intact := by
  obtain ⟨⟨mark, hmark, hsound⟩, hhighWater⟩ := h
  -- With its clock set back the table is sound, and all but the clock is the same.
  exact
    { keyed := fun hget => hsound.state.keyed hget
      index_perm := hsound.index_perm
      distinct := List.pairwise_map.2 hsound.state.pairwise_values
      inRange := fun row hrow => by
        have hget := hsound.state.mem_values_iff.1 hrow
        have hpositive := hsound.state.positive hget
        rw [UInt64.lt_iff_toNat_lt] at hpositive
        refine ⟨UInt64.le_iff_toNat_le.2 hpositive, ?_⟩
        exact UInt64.le_trans (hsound.state.le_mark hget) hmark
      highWater_le := hhighWater
      rowsAfter_perm := hsound.rowsAfter_perm
      rowsAfter_ordered := fun time => by
        have hordered : (table.rowsAfter time).Pairwise fun a b => a.modifiedAt < b.modifiedAt :=
          hsound.logOrdered_rowsAfter
        exact hordered.imp ChangeKey.compare_of_time_lt
      rowsAfter_zero := hsound.rowsAfter_zero_perm }

end Table

/-! ## Stores that are only used by their operations -/

/-- The rows, the index and the clock of every table fit together in a store that is only used by
its operations: writing, deleting and removing rows, and transactions with any bodies that do
nothing to their transaction but write through it, whether they succeed or fail. -/
theorem Store.Constructed.table_intact {store : Store} (h : Constructed store) (scope : Scope) :
    (store.table scope).Intact :=
  (h.regular scope).intact

open SyncTables in
/-- After a row was removed the clock is ahead of the row left. -/
theorem Store.Constructed.table_intact_sample :
    (Store.sampleRemoved.table sampleScope).Intact ∧
      (Store.sampleRemoved.table sampleScope).highWater = 6000 ∧
      (Store.sampleRemoved.table sampleScope).index.keys = [⟨5000, "a"⟩] :=
  ⟨Store.constructed_sampleRemoved.table_intact sampleScope, by decide +kernel, by decide +kernel⟩

namespace Transaction

variable {txn txn' txn'' : Transaction} {α : Type}

/-- Writes after writes are writes. -/
theorem Reaches.trans (h : txn.Reaches txn') (h' : txn'.Reaches txn'') : txn.Reaches txn'' := by
  induction h' with
  | refl => exact h
  | upsert id payload claim _ ih => exact .upsert id payload claim ih
  | delete id claim _ ih => exact .delete id claim ih
  | apply mutation _ ih => exact .apply mutation ih

/-- An operation does nothing to a transaction but write through it. -/
theorem reaches_of_run_operation {operation : Operation α} {result : α}
    (h : operation.run txn = .ok (result, txn')) : txn.Reaches txn' := by
  cases operation with
  | row | liveIds | changesAfter | highWater =>
    cases h
    exact .refl
  | upsert id payload claim => exact reaches_of_upsert h
  | delete id claim => exact reaches_of_delete h

/-- A script does nothing to a transaction but write through it. -/
theorem reaches_of_run {script : Script α} {value : α} (h : script.run txn = .ok (value, txn')) :
    txn.Reaches txn' := by
  induction script generalizing txn with
  | done value =>
    cases h
    exact .refl
  | refuse cause => cases h
  | step operation next ih =>
    obtain ⟨⟨result, middle⟩, hfirst, hrest⟩ := bind_eq_ok_iff.1 h
    exact (reaches_of_run_operation hfirst).trans (ih result hrest)

end Transaction

/-- An operation behind a check that is a way to use the store is one. -/
theorem Store.Constructed.guarded {store : Store} (h : Constructed store) {α : Type}
    {check : Except SyncError Unit} {action : Store → Except SyncError α × Store}
    (haction : Constructed (action store).2) : Constructed (store.guarded check action).2 := by
  cases check with
  | ok _ => exact haction
  | error e => exact h

/-- Calls on sync tables use the store by its operations only. -/
theorem SyncTables.RunsTo.constructed {limits : Limits} {start store : Store}
    (hrun : RunsTo limits start store) (h : start.Constructed) : store.Constructed := by
  induction hrun with
  | refl => exact h
  | @call store scope now call _ ih =>
    cases hscript : call.script? with
    | none => rwa [perform_of_reads hscript]
    | some script =>
      rw [perform_of_script hscript]
      exact ih.guarded (.transact scope now script.run (fun _ _ => Transaction.reaches_of_run) ih)

/-- Calls on local tables use the store by its operations only. -/
theorem LocalTables.Reachable.constructed {store : Store} (h : Reachable store) :
    store.Constructed := by
  induction h with
  | empty => exact .empty
  | @call store scope now call _ ih =>
    cases call with
    | rows | row => exact ih
    | put row => exact .upsert scope now row.id row.fields ih
    | delete id => exact .remove scope id ih

end RowSync
