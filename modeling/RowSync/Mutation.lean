import RowSync.Row

/-!
# Mutations

The changes that clients make to rows. A batch is a list of them, in the order of their making.
-/

namespace RowSync

/-- A change of one row. -/
inductive Mutation where
  /-- Write a payload to the row, which need not exist. -/
  | upsert (id : RowId) (payload : Payload)
  /-- Turn the row into a tombstone. -/
  | delete (id : RowId)
deriving DecidableEq, Repr

namespace Mutation

/-- The row that is changed. -/
def rowId : Mutation → RowId
  | .upsert id _ => id
  | .delete id => id

/-- Whether the mutation deletes its row. -/
def isDelete : Mutation → Bool
  | .upsert _ _ => false
  | .delete _ => true

/-- A mutation has to name a valid row id. -/
def check (mutation : Mutation) : Except SyncError Unit := checkRowId mutation.rowId

end Mutation

end RowSync
