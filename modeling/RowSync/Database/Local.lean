import RowSync.Database.Session

/-!
# Local Tables in a Database

The operations on local tables over a database. Each operation is one statement, so none needs a
transaction.
-/

namespace RowSync.Database

/-- Take the stored payloads for rows. -/
def readLocalRows : List (RowId × String) → Session (List FlatRow)
  | [] => pure []
  | (id, text) :: rest =>
    match readPayload? text with
    | some fields => do return ⟨id, fields⟩ :: (← readLocalRows rest)
    | none => throw .database

/-- The rows of a scope in the order of their ids. -/
def localRows (scope : Scope) : Session (List FlatRow) := do
  readLocalRows (← run (.localRows scope))

/-- The row with an id. -/
def localRow (scope : Scope) (id : RowId) : Session FlatRow := do
  check (checkRowId id)
  match ← readLocalRows (← run (.localRow scope id)) with
  | row :: _ => return row
  | [] => throw (.refused (.rowNotFound id))

/-- Write a row. -/
def putLocal (scope : Scope) (row : FlatRow) : Session FlatRow := do
  check (checkRowId row.id)
  run (.writeLocalRow scope row)
  return row

/-- Remove a row. -/
def deleteLocal (scope : Scope) (id : RowId) : Session Unit := do
  check (checkRowId id)
  if (← run (.deleteLocalRow scope id)) = 0 then throw (.refused (.rowNotFound id))

/-- Answer a call on a local table. -/
def performLocal (scope : Scope) : LocalCall → Session LocalReply
  | .rows => return .rows (← localRows scope)
  | .row id => return .row (← localRow scope id)
  | .put row => return .row (← putLocal scope row)
  | .delete id => do
    deleteLocal scope id
    return .done

end RowSync.Database
