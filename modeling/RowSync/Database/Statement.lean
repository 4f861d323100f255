import RowSync.Database.Tables

/-!
# Statements

The statements that the service sends to the database: their text, the values bound to their
parameters, and what they return and do.
-/

namespace RowSync.Database

/-- Whether a lock keeps everybody else out, or writers only. -/
inductive LockMode where
  | exclusive
  | shared
deriving DecidableEq, Repr

/-- A statement, by the type of what it returns. -/
inductive Statement : Type → Type where
  /-- Open a transaction. -/
  | begin : Statement Unit
  /-- Commit the open transaction. -/
  | commit : Statement Unit
  /-- Lock a scope until the transaction ends. -/
  | lock (mode : LockMode) (scope : Scope) : Statement Unit
  /-- The latest time in a scope, zero if it has no rows. -/
  | highWater (scope : Scope) : Statement Int64
  /-- The row with an id. -/
  | row (scope : Scope) (id : RowId) : Statement (List (RowId × StoredRow))
  /-- The live rows in the order of their ids. -/
  | liveRows (scope : Scope) : Statement (List (RowId × StoredRow))
  /-- The ids of the live rows in order. -/
  | liveIds (scope : Scope) : Statement (List RowId)
  /-- The rows changed after a time, in the order of their changes. -/
  | changesAfter (scope : Scope) (time : Int64) : Statement (List (RowId × StoredRow))
  /-- Insert or overwrite a row. -/
  | writeRow (scope : Scope) (row : Row) : Statement Unit
  /-- The local rows in the order of their ids. -/
  | localRows (scope : Scope) : Statement (List (RowId × String))
  /-- The local row with an id. -/
  | localRow (scope : Scope) (id : RowId) : Statement (List (RowId × String))
  /-- Insert or overwrite a local row. -/
  | writeLocalRow (scope : Scope) (row : FlatRow) : Statement Unit
  /-- Delete a local row, and return how many rows there were. -/
  | deleteLocalRow (scope : Scope) (id : RowId) : Statement Nat

namespace Statement

/-- The text of a statement. -/
def text {α : Type} : Statement α → String
  | .begin => "BEGIN"
  | .commit => "COMMIT"
  | .lock .exclusive _ => "SELECT pg_advisory_xact_lock(hashtext($1))"
  | .lock .shared _ => "SELECT pg_advisory_xact_lock_shared(hashtext($1))"
  | .highWater _ =>
    "SELECT COALESCE(MAX(modified_at), 0) FROM sync_rows WHERE table_name = $1 AND user_id = $2"
  | .row _ _ =>
    "SELECT unique_id, payload, modified_at, deleted FROM sync_rows " ++
      "WHERE table_name = $1 AND user_id = $2 AND unique_id = $3"
  | .liveRows _ =>
    "SELECT unique_id, payload, modified_at, deleted FROM sync_rows " ++
      "WHERE table_name = $1 AND user_id = $2 AND deleted = false " ++
      "ORDER BY unique_id COLLATE \"C\""
  | .liveIds _ =>
    "SELECT unique_id FROM sync_rows " ++
      "WHERE table_name = $1 AND user_id = $2 AND deleted = false " ++
      "ORDER BY unique_id COLLATE \"C\""
  | .changesAfter _ _ =>
    "SELECT unique_id, payload, modified_at, deleted FROM sync_rows " ++
      "WHERE table_name = $1 AND user_id = $2 AND modified_at > $3 " ++
      "ORDER BY modified_at, unique_id COLLATE \"C\""
  | .writeRow _ _ =>
    "INSERT INTO sync_rows (table_name, user_id, unique_id, payload, modified_at, deleted) " ++
      "VALUES ($1, $2, $3, $4, $5, $6) ON CONFLICT (table_name, user_id, unique_id) " ++
      "DO UPDATE SET payload = EXCLUDED.payload, modified_at = EXCLUDED.modified_at, " ++
      "deleted = EXCLUDED.deleted"
  | .localRows _ =>
    "SELECT unique_id, payload FROM local_rows WHERE table_name = $1 AND user_id = $2 " ++
      "ORDER BY unique_id COLLATE \"C\""
  | .localRow _ _ =>
    "SELECT unique_id, payload FROM local_rows " ++
      "WHERE table_name = $1 AND user_id = $2 AND unique_id = $3"
  | .writeLocalRow _ _ =>
    "INSERT INTO local_rows (table_name, user_id, unique_id, payload) " ++
      "VALUES ($1, $2, $3, $4) ON CONFLICT (table_name, user_id, unique_id) " ++
      "DO UPDATE SET payload = EXCLUDED.payload"
  | .deleteLocalRow _ _ =>
    "DELETE FROM local_rows WHERE table_name = $1 AND user_id = $2 AND unique_id = $3"

/-- The texts bound to parameters. -/
def texts {α : Type} : Statement α → List String
  | .begin | .commit => []
  | .lock _ scope => [scope.name]
  | .highWater scope | .liveRows scope | .liveIds scope | .changesAfter scope _
  | .localRows scope => [scope.table, scope.user]
  | .row scope id | .localRow scope id | .deleteLocalRow scope id => [scope.table, scope.user, id]
  | .writeRow scope written => [scope.table, scope.user, written.id]
  | .writeLocalRow scope written => [scope.table, scope.user, written.id]

/-- The payload bound to a parameter. -/
def payload? {α : Type} : Statement α → Option Payload
  | .writeRow _ written => some written.payload
  | .writeLocalRow _ written => some written.fields
  | _ => none

/-- What a statement returns, and the tables after it. -/
def eval {α : Type} (statement : Statement α) (tables : Tables) : α × Tables :=
  match statement with
  | .begin => ((), tables)
  | .commit => ((), tables)
  | .lock _ _ => ((), tables)
  | .highWater scope =>
    (((Tables.ofScope tables.syncRows scope).map (·.2.modifiedAt)).max?.getD 0, tables)
  | .row scope id =>
    ((Tables.ofScope tables.syncRows scope).filter (·.1 == id), tables)
  | .liveRows scope =>
    ((Tables.ofScope tables.syncRows scope).filter (!·.2.deleted), tables)
  | .liveIds scope =>
    (((Tables.ofScope tables.syncRows scope).filter (!·.2.deleted)).map (·.1), tables)
  | .changesAfter scope time =>
    (((Tables.ofScope tables.syncRows scope).filter (time < ·.2.modifiedAt)).mergeSort
      (·.2.modifiedAt ≤ ·.2.modifiedAt), tables)
  | .writeRow scope written =>
    let key := .ofScope scope written.id
    ((), { tables with syncRows := tables.syncRows.insert key (.ofRow written) })
  | .localRows scope => (Tables.ofScope tables.localRows scope, tables)
  | .localRow scope id =>
    ((Tables.ofScope tables.localRows scope).filter (·.1 == id), tables)
  | .writeLocalRow scope written =>
    let key := .ofScope scope written.id
    ((), { tables with localRows := tables.localRows.insert key (payloadText written.fields) })
  | .deleteLocalRow scope id =>
    (if tables.localRows.contains (.ofScope scope id) then 1 else 0,
      { tables with localRows := tables.localRows.erase (.ofScope scope id) })

end Statement

end RowSync.Database
