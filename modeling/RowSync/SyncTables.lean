import RowSync.Call
import RowSync.Limits
import RowSync.Store

/-!
# Sync Tables

The operations by which clients keep their tables in step with those of a store. Each operation that
writes is one transaction on its scope.
-/

namespace RowSync.SyncTables

/-- All live rows, with the largest timestamp of the scope as the baseline. -/
def snapshot (store : Store) (scope : Scope) : SyncReport where
  newTimestamp := (store.table scope).highWater
  changes := store.liveRows scope

/-- The rows changed after a baseline, tombstones included. -/
def changesSince (store : Store) (scope : Scope) (base : Timestamp) : SyncReport :=
  .ofChanges base ((store.table scope).rowsAfter base)

/-- Apply the mutations of a batch whose rows did not change after the baseline. All rows changed
after it are reported, with those just written. -/
def sync (limits : Limits) (store : Store) (scope : Scope) (now base : Timestamp)
    (batch : List Mutation) : Except SyncError SyncReport × Store :=
  store.guarded (limits.checkBatch batch) fun store =>
    store.transact scope now fun txn => do
      let split := splitBatch (txn.changesAfter base) batch
      let (_, txn) ← txn.applyAll split.accepted
      let report := SyncReport.ofChanges base (txn.changesAfter base)
      return (report.withConflicts split.conflicts, txn)

/-- What is told after a batch was applied as it is: the last state of each row written. -/
def written (rows : List Row) (txn : Transaction) : SyncReport where
  newTimestamp := txn.highWater
  changes := lastWritten rows

/-- Apply all mutations of a batch. -/
def push (limits : Limits) (store : Store) (scope : Scope) (now : Timestamp)
    (batch : List Mutation) : Except SyncError SyncReport × Store :=
  store.guarded (limits.checkBatch batch) fun store =>
    store.transact scope now fun txn => do
      let (rows, txn) ← txn.applyAll batch
      return (written rows txn, txn)

/-- Make the given rows the only live ones of the scope. -/
def replace (limits : Limits) (store : Store) (scope : Scope) (now : Timestamp)
    (rows : List FlatRow) : Except SyncError SyncReport × Store :=
  store.guarded (limits.checkLength rows.length) fun store =>
    store.transact scope now fun txn => do
      let batch ← replacementBatch txn.liveIds rows
      let (rows, txn) ← txn.applyAll batch
      return (written rows txn, txn)

/-- A write that carries a claimed edit time needs a valid row id and an acceptable claim. -/
def checkEdit (limits : Limits) (now : Timestamp) (id : RowId) (claim : Timestamp) :
    Except SyncError Unit := do
  checkRowId id
  limits.checkClaim claim now

/-- Write a row unless it was written after the claimed edit time. -/
def putIfRecent (limits : Limits) (store : Store) (scope : Scope) (now : Timestamp) (id : RowId)
    (payload : Payload) (claim : Timestamp) : Except SyncError EditOutcome × Store :=
  store.guarded (checkEdit limits now id claim) fun store =>
    store.transact scope now fun txn => do
      match txn.get? id with
      | some row =>
        if mayReplace (some row) claim then
          let (row, txn) ← txn.upsert id payload (some claim)
          return (.applied row, txn)
        else return (.stale row, txn)
      | none =>
        let (row, txn) ← txn.upsert id payload (some claim)
        return (.applied row, txn)

/-- Delete a row unless it was written after the claimed edit time. -/
def deleteIfRecent (limits : Limits) (store : Store) (scope : Scope) (now : Timestamp)
    (id : RowId) (claim : Timestamp) : Except SyncError EditOutcome × Store :=
  store.guarded (checkEdit limits now id claim) fun store =>
    store.transact scope now fun txn => do
      match txn.get? id with
      | some row =>
        if mayReplace (some row) claim then
          let (row, txn) ← txn.delete id (some claim)
          return (.applied row, txn)
        else return (.stale row, txn)
      | none => .error (.rowNotFound id)

/-- Answer a call on a scope. -/
def perform (limits : Limits) (store : Store) (scope : Scope) (now : Timestamp) :
    SyncCall → Except SyncError SyncReply × Store
  | .rows => (.ok (.rows (store.liveRows scope)), store)
  | .row id => ((store.get scope id).map .row, store)
  | .snapshot => (.ok (.report (snapshot store scope)), store)
  | .changesSince base => (.ok (.report (changesSince store scope base)), store)
  | .put id payload => mapReply .row (store.upsert scope now id payload)
  | .delete id => mapReply .row (store.delete scope now id)
  | .sync base batch => mapReply .report (sync limits store scope now base batch)
  | .push batch => mapReply .report (push limits store scope now batch)
  | .replace rows => mapReply .report (replace limits store scope now rows)
  | .putIfRecent id payload claim =>
    mapReply .outcome (putIfRecent limits store scope now id payload claim)
  | .deleteIfRecent id claim =>
    mapReply .outcome (deleteIfRecent limits store scope now id claim)

end RowSync.SyncTables
