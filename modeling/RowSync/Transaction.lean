import RowSync.Table

/-!
# Transactions

A transaction on one scope stages the rows it writes over the committed ones. Its reads see the
staged rows; the table sees them when the transaction is committed. A write that fails leaves the
transaction as it was.
-/

namespace RowSync

/-- An open transaction on a scope. -/
structure Transaction where
  /-- The committed rows. -/
  table : Table
  /-- The rows written in the transaction, by id. -/
  staged : OrderedMap RowId Row
  /-- The clock of the scope, ahead by the timestamps assigned in the transaction. -/
  clock : HybridClock
  /-- What the wall clock showed when the transaction was opened. -/
  now : Timestamp
deriving DecidableEq, Repr

namespace Transaction

/-- Open a transaction on a table. -/
def start (table : Table) (now : Timestamp) : Transaction := ⟨table, ∅, table.clock, now⟩

/-! ## Reads -/

/-- The largest timestamp assigned in the scope, the transaction included. -/
def highWater (txn : Transaction) : Timestamp := txn.clock.highWater

/-- The row with an id, tombstones included. -/
def get? (txn : Transaction) (id : RowId) : Option Row :=
  (txn.staged.get? id).or (txn.table.get? id)

/-- The live row with an id. -/
def getLive? (txn : Transaction) (id : RowId) : Option Row := (txn.get? id).filter Row.isLive

/-- The ids of the live rows in order. -/
def liveIds (txn : Transaction) : List RowId :=
  let committed := txn.table.liveRows.filter fun row => !txn.staged.contains row.id
  let staged := txn.staged.values.filter Row.isLive
  ((committed ++ staged).map Row.id).mergeSort (· ≤ ·)

/-- The rows last written after a time, in the order of the change log. Rows written in the
transaction come last, since their timestamps are ahead of all committed ones. -/
def changesAfter (txn : Transaction) (time : Timestamp) : List Row :=
  let committed := (txn.table.rowsAfter time).filter fun row => !txn.staged.contains row.id
  let staged := txn.staged.values.filter fun row => time < row.modifiedAt
  committed ++ inChangeOrder staged

/-! ## Writes -/

/-- Stage a row. -/
def stage (txn : Transaction) (row : Row) : Transaction :=
  { txn with staged := txn.staged.insert row.id row }

/-- Assign a timestamp, taken from the claimed edit time if there is one. -/
def tick (txn : Transaction) (claim : Option Timestamp) :
    Except SyncError (Timestamp × Transaction) := do
  let (timestamp, clock) ← txn.clock.tick (claim.getD txn.now)
  return (timestamp, { txn with clock })

/-- Write a payload to a row, which is created if there is none and comes back to life if it is a
tombstone. -/
def upsert (txn : Transaction) (id : RowId) (payload : Payload) (claim : Option Timestamp) :
    Except SyncError (Row × Transaction) := do
  let (timestamp, txn) ← txn.tick claim
  let row := match txn.get? id with
    | some row => row.update payload timestamp
    | none => .create id payload timestamp
  return (row, txn.stage row)

/-- Turn a row into a tombstone. -/
def delete (txn : Transaction) (id : RowId) (claim : Option Timestamp) :
    Except SyncError (Row × Transaction) :=
  match txn.get? id with
  | none => .error (.rowNotFound id)
  | some row => do
    let (timestamp, txn) ← txn.tick claim
    let row := row.entomb timestamp
    return (row, txn.stage row)

/-- Apply a mutation. -/
def apply (txn : Transaction) : Mutation → Except SyncError (Row × Transaction)
  | .upsert id payload => txn.upsert id payload none
  | .delete id => txn.delete id none

/-- Apply the mutations of a batch in order; also the rows as they were written one by one. -/
def applyAll (txn : Transaction) : List Mutation → Except SyncError (List Row × Transaction)
  | [] => .ok ([], txn)
  | mutation :: rest => do
    let (row, txn) ← txn.apply mutation
    let (rows, txn) ← txn.applyAll rest
    return (row :: rows, txn)

/-! ## Rows after an operation -/

/-- A transaction that has staged nothing sees the rows of the table. -/
@[simp]
theorem get?_start (table : Table) (now : Timestamp) (id : RowId) :
    (start table now).get? id = table.get? id := by
  simp [get?, start]

/-- A staged row is found under its id, and all other rows are as before. -/
@[simp]
theorem get?_stage (txn : Transaction) (row : Row) (id : RowId) :
    (txn.stage row).get? id = if id = row.id then some row else txn.get? id := by
  by_cases h : id = row.id <;> simp [get?, stage, h]

/-! ## Commit -/

/-- The table with the staged rows. -/
def commit (txn : Transaction) : Table := txn.staged.values.foldl Table.commitRow txn.table

end Transaction

end RowSync
