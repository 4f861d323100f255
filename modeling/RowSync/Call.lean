import RowSync.Reconcile

/-!
# Calls

The operations on the tables of a scope, as values: the calls on sync tables and on local tables,
the replies to them, and why they fail. Every backend answers these calls.
-/

namespace RowSync

/-- An operation on a sync table. -/
inductive SyncCall where
  /-- List the live rows. -/
  | rows
  /-- Get a live row. -/
  | row (id : RowId)
  /-- Get all live rows together with a baseline. -/
  | snapshot
  /-- Get the rows changed after a baseline. -/
  | changesSince (base : Timestamp)
  /-- Write a row. -/
  | put (id : RowId) (payload : Payload)
  /-- Delete a row. -/
  | delete (id : RowId)
  /-- Apply those mutations of a batch whose rows did not change after a baseline. -/
  | sync (base : Timestamp) (batch : List Mutation)
  /-- Apply all mutations of a batch. -/
  | push (batch : List Mutation)
  /-- Make the given rows the only live ones. -/
  | replace (rows : List FlatRow)
  /-- Write a row unless it was written after the claimed edit time. -/
  | putIfRecent (id : RowId) (payload : Payload) (claim : Timestamp)
  /-- Delete a row unless it was written after the claimed edit time. -/
  | deleteIfRecent (id : RowId) (claim : Timestamp)
deriving DecidableEq, Repr

/-- The reply to an operation on a sync table. -/
inductive SyncReply where
  | rows (rows : List Row)
  | row (row : Row)
  | report (report : SyncReport)
  | outcome (outcome : EditOutcome)
deriving DecidableEq, Repr

/-- An operation on a local table. -/
inductive LocalCall where
  /-- List the rows. -/
  | rows
  /-- Get a row. -/
  | row (id : RowId)
  /-- Write a row. -/
  | put (row : FlatRow)
  /-- Remove a row. -/
  | delete (id : RowId)
deriving DecidableEq, Repr

/-- The reply to an operation on a local table. -/
inductive LocalReply where
  | rows (rows : List FlatRow)
  | row (row : FlatRow)
  | done
deriving DecidableEq, Repr

/-- Why a call fails. -/
inductive CallError where
  /-- The database failed, or a row could not be read. -/
  | database
  /-- The operation is refused. -/
  | refused (cause : SyncError)
deriving DecidableEq, Repr

/-- Turn the result of an operation into a reply; the state after it stays as it is. -/
def mapReply {ε α β σ : Type} (reply : α → β) (outcome : Except ε α × σ) : Except ε β × σ :=
  (outcome.1.map reply, outcome.2)

end RowSync
