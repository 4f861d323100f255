import RowSync.Database.Session
import RowSync.HybridClock
import RowSync.Limits

/-!
# Sync Tables in a Database

The operations on sync tables over a database. Each operation that writes is one transaction: it
locks its scope, takes up the clock from the latest time stored, and runs its statements.
-/

namespace RowSync.Database

/-! ## Reads -/

/-- Take the stored columns for rows. -/
def readRows : List (RowId × StoredRow) → Session (List Row)
  | [] => pure []
  | (id, stored) :: rest =>
    match stored.toRow? id with
    | some row => do return row :: (← readRows rest)
    | none => throw .database

/-- The latest time in a scope. -/
def highWater (scope : Scope) : Session Timestamp := do
  return StoredRow.timestamp (← run (.highWater scope))

/-- The row with an id, tombstones included. -/
def getRow? (scope : Scope) (id : RowId) : Session (Option Row) := do
  let rows ← readRows (← run (.row scope id))
  return rows.head?

/-- The live rows in the order of their ids. -/
def liveRows (scope : Scope) : Session (List Row) := do
  readRows (← run (.liveRows scope))

/-- The rows changed after a time, tombstones included. -/
def changesAfter (scope : Scope) (time : Timestamp) : Session (List Row) := do
  readRows (← run (.changesAfter scope time.toInt64))

/-- The live row with an id. -/
def getLive (scope : Scope) (id : RowId) : Session Row := do
  check (checkRowId id)
  match (← getRow? scope id).filter Row.isLive with
  | some row => return row
  | none => throw (.refused (.rowNotFound id))

/-- All live rows, with the latest time of the scope as the baseline. -/
def snapshot (scope : Scope) : Session SyncReport :=
  transaction do
    run (.lock .shared scope)
    let newTimestamp ← highWater scope
    let changes ← liveRows scope
    return { newTimestamp, changes }

/-- The rows changed after a baseline. -/
def changesSince (scope : Scope) (base : Timestamp) : Session SyncReport := do
  return .ofChanges base (← changesAfter scope base)

/-! ## Writers -/

/-- The state of a transaction that writes to a scope. -/
structure Writer where
  /-- The scope. -/
  scope : Scope
  /-- The clock, ahead by the timestamps assigned in the transaction. -/
  clock : HybridClock
  /-- What the wall clock showed when the transaction was opened. -/
  now : Timestamp
deriving DecidableEq, Repr

namespace Writer

/-- Lock a scope and take up its clock. -/
def start (scope : Scope) (now : Timestamp) : Session Writer := do
  run (.lock .exclusive scope)
  return ⟨scope, ⟨← highWater scope⟩, now⟩

/-- Assign a timestamp, taken from the claimed edit time if there is one. -/
def tick (writer : Writer) (claim : Option Timestamp) : Session (Timestamp × Writer) := do
  let (timestamp, clock) ← check (writer.clock.tick (claim.getD writer.now))
  return (timestamp, { writer with clock })

/-- Store a row. -/
def store (writer : Writer) (row : Row) : Session (Row × Writer) := do
  run (.writeRow writer.scope row)
  return (row, writer)

/-- Write a payload to a row, which is created if there is none and comes back to life if it is a
tombstone. -/
def upsert (writer : Writer) (id : RowId) (payload : Payload) (claim : Option Timestamp) :
    Session (Row × Writer) := do
  let (timestamp, writer) ← writer.tick claim
  match ← getRow? writer.scope id with
  | some row => writer.store (row.update payload timestamp)
  | none => writer.store (.create id payload timestamp)

/-- Turn a row into a tombstone. -/
def delete (writer : Writer) (id : RowId) (claim : Option Timestamp) :
    Session (Row × Writer) := do
  match ← getRow? writer.scope id with
  | none => throw (.refused (.rowNotFound id))
  | some row =>
    let (timestamp, writer) ← writer.tick claim
    writer.store (row.entomb timestamp)

/-- Apply a mutation. -/
def apply (writer : Writer) : Mutation → Session (Row × Writer)
  | .upsert id payload => writer.upsert id payload none
  | .delete id => writer.delete id none

/-- Apply the mutations of a batch in order; also the rows as they were written one by one. -/
def applyAll (writer : Writer) : List Mutation → Session (List Row × Writer)
  | [] => return ([], writer)
  | mutation :: rest => do
    let (row, writer) ← writer.apply mutation
    let (rows, writer) ← writer.applyAll rest
    return (row :: rows, writer)

end Writer

/-- Run a computation with a writer, as one transaction. -/
def writing {α : Type} (scope : Scope) (now : Timestamp) (body : Writer → Session α) : Session α :=
  transaction do body (← Writer.start scope now)

/-! ## Writes -/

/-- Write a row. -/
def put (scope : Scope) (now : Timestamp) (id : RowId) (payload : Payload) : Session Row := do
  check (checkRowId id)
  writing scope now fun writer => return (← writer.upsert id payload none).1

/-- Delete a row. -/
def delete (scope : Scope) (now : Timestamp) (id : RowId) : Session Row := do
  check (checkRowId id)
  writing scope now fun writer => return (← writer.delete id none).1

/-- Apply the mutations of a batch whose rows did not change after the baseline. -/
def sync (limits : Limits) (scope : Scope) (now base : Timestamp) (batch : List Mutation) :
    Session SyncReport := do
  check (limits.checkBatch batch)
  writing scope now fun writer => do
    let split := splitBatch (← changesAfter scope base) batch
    let _ ← writer.applyAll split.accepted
    let changes ← changesAfter scope base
    return (SyncReport.ofChanges base changes).withConflicts split.conflicts

/-- Apply a batch, and report the last state of each row written. -/
def applyBatch (writer : Writer) (batch : List Mutation) : Session SyncReport := do
  let (rows, writer) ← writer.applyAll batch
  return { newTimestamp := writer.clock.highWater, changes := lastWritten rows }

/-- Apply all mutations of a batch. -/
def push (limits : Limits) (scope : Scope) (now : Timestamp) (batch : List Mutation) :
    Session SyncReport := do
  check (limits.checkBatch batch)
  writing scope now fun writer => applyBatch writer batch

/-- Make the given rows the only live ones of the scope. -/
def replace (limits : Limits) (scope : Scope) (now : Timestamp) (rows : List FlatRow) :
    Session SyncReport := do
  check (limits.checkLength rows.length)
  writing scope now fun writer => do
    let live ← run (.liveIds scope)
    applyBatch writer (← check (replacementBatch live rows))

/-- Write a row unless it was written after the claimed edit time. -/
def putIfRecent (limits : Limits) (scope : Scope) (now : Timestamp) (id : RowId)
    (payload : Payload) (claim : Timestamp) : Session EditOutcome := do
  check (checkRowId id)
  check (limits.checkClaim claim now)
  writing scope now fun writer => do
    match ← getRow? scope id with
    | some row =>
      if mayReplace (some row) claim then
        return .applied (← writer.upsert id payload (some claim)).1
      else return .stale row
    | none => return .applied (← writer.upsert id payload (some claim)).1

/-- Delete a row unless it was written after the claimed edit time. -/
def deleteIfRecent (limits : Limits) (scope : Scope) (now : Timestamp) (id : RowId)
    (claim : Timestamp) : Session EditOutcome := do
  check (checkRowId id)
  check (limits.checkClaim claim now)
  writing scope now fun writer => do
    match ← getRow? scope id with
    | some row =>
      if mayReplace (some row) claim then
        return .applied (← writer.delete id (some claim)).1
      else return .stale row
    | none => throw (.refused (.rowNotFound id))

/-- Answer a call on a sync table. -/
def performSync (limits : Limits) (scope : Scope) (now : Timestamp) : SyncCall → Session SyncReply
  | .rows => return .rows (← liveRows scope)
  | .row id => return .row (← getLive scope id)
  | .snapshot => return .report (← snapshot scope)
  | .changesSince base => return .report (← changesSince scope base)
  | .put id payload => return .row (← put scope now id payload)
  | .delete id => return .row (← delete scope now id)
  | .sync base batch => return .report (← sync limits scope now base batch)
  | .push batch => return .report (← push limits scope now batch)
  | .replace rows => return .report (← replace limits scope now rows)
  | .putIfRecent id payload claim =>
    return .outcome (← putIfRecent limits scope now id payload claim)
  | .deleteIfRecent id claim => return .outcome (← deleteIfRecent limits scope now id claim)

end RowSync.Database
