import RowSync.Payload

/-!
# Rows

Rows of sync tables, which outlive their deletion as tombstones, and the flat form in which clients
write rows.
-/

namespace RowSync

/-- A row id has to be neither empty nor too long. -/
def checkRowId (id : RowId) : Except SyncError Unit :=
  if id.utf8ByteSize = 0 then .error .rowIdEmpty
  else if maxRowIdLength < id.utf8ByteSize then .error .rowIdLength
  else .ok ()

/-- A row of a sync table. -/
structure Row where
  /-- The name of the row in its scope. -/
  id : RowId
  /-- The content of the row; a tombstone keeps the last one. -/
  payload : Payload
  /-- The timestamp of the last write. -/
  modifiedAt : Timestamp
  /-- Whether the row is a tombstone. -/
  deleted : Bool
deriving DecidableEq, Repr

namespace Row

/-- A new row. -/
def create (id : RowId) (payload : Payload) (modifiedAt : Timestamp) : Row :=
  ⟨id, payload, modifiedAt, false⟩

/-- Whether the row is no tombstone. -/
def isLive (row : Row) : Bool := !row.deleted

/-- Write a payload to the row; a tombstone comes back to life. -/
def update (row : Row) (payload : Payload) (modifiedAt : Timestamp) : Row :=
  { row with payload, modifiedAt, deleted := false }

/-- Turn the row into a tombstone. -/
def entomb (row : Row) (modifiedAt : Timestamp) : Row :=
  { row with modifiedAt, deleted := true }

end Row

/-- The key under which a flat row carries its id. -/
def idKey : String := "uniqueId"

/-- A row in the form of one object, its id next to the members of its payload. -/
structure FlatRow where
  /-- The name of the row in its scope. -/
  id : RowId
  /-- The other members. -/
  fields : Payload
deriving DecidableEq, Repr

/-- The flat form of a row. A member under the key of the id gives way to the id. -/
def Row.flatten (row : Row) : FlatRow := ⟨row.id, row.payload.erase idKey⟩

end RowSync
