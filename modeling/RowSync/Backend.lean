import RowSync.Database.Local
import RowSync.Database.Sync
import RowSync.LocalTables
import RowSync.SyncTables

/-!
# Backends

Where the rows are kept: in memory, sync tables and local tables in stores of their own, or in a
database. Both kinds answer the same calls.
-/

namespace RowSync

/-- A place where rows are kept. -/
inductive Backend where
  /-- The stores of the sync tables and of the local tables. -/
  | memory (syncStore localStore : Store)
  /-- A database. -/
  | database (db : Database)
deriving DecidableEq, Repr

namespace Backend

/-- The short name of the kind. -/
def kindName : Backend → String
  | memory _ _ => "memory"
  | database _ => "postgres"

/-- Answer a call on a sync table. -/
def performSync (limits : Limits) (backend : Backend) (scope : Scope) (now : Timestamp)
    (call : SyncCall) : Except CallError SyncReply × Backend :=
  match backend with
  | memory syncStore localStore =>
    let (outcome, syncStore) := SyncTables.perform limits syncStore scope now call
    (outcome.mapError .refused, memory syncStore localStore)
  | database db =>
    let (outcome, db) := Database.performSync limits scope now call db
    (outcome, database db)

/-- Answer a call on a local table. -/
def performLocal (backend : Backend) (scope : Scope) (now : Timestamp) (call : LocalCall) :
    Except CallError LocalReply × Backend :=
  match backend with
  | memory syncStore localStore =>
    let (outcome, localStore) := LocalTables.perform localStore scope now call
    (outcome.mapError .refused, memory syncStore localStore)
  | database db =>
    let (outcome, db) := Database.performLocal scope call db
    (outcome, database db)

end Backend

end RowSync
