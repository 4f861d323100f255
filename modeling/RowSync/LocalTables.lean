import RowSync.Call
import RowSync.Store

/-!
# Local Tables

Tables that no client keeps in step with its own: rows are written, read and removed, and nothing
stays of a row that was removed. Local tables have a store of their own, so that they share no rows
with the sync tables of the same names.
-/

namespace RowSync.LocalTables

/-- The rows of a scope in the order of their ids. -/
def rows (store : Store) (scope : Scope) : List FlatRow := (store.liveRows scope).map Row.flatten

/-- The row with an id. -/
def row (store : Store) (scope : Scope) (id : RowId) : Except SyncError FlatRow :=
  (store.get scope id).map Row.flatten

/-- Write a row. -/
def put (store : Store) (scope : Scope) (now : Timestamp) (row : FlatRow) :
    Except SyncError FlatRow × Store :=
  mapReply Row.flatten (store.upsert scope now row.id row.fields)

/-- Remove a row. -/
def delete (store : Store) (scope : Scope) (id : RowId) : Except SyncError Unit × Store :=
  mapReply (fun _ => ()) (store.remove scope id)

/-- The number of rows in a scope. -/
def count (store : Store) (scope : Scope) : Nat := (store.table scope).totalCount

/-- Answer a call on a scope. -/
def perform (store : Store) (scope : Scope) (now : Timestamp) :
    LocalCall → Except SyncError LocalReply × Store
  | .rows => (.ok (.rows (rows store scope)), store)
  | .row id => ((row store scope id).map .row, store)
  | .put row => mapReply .row (put store scope now row)
  | .delete id => mapReply (fun _ => .done) (delete store scope id)

end RowSync.LocalTables
