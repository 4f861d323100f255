import RowSync.ChangeKey
import RowSync.Mutation
import RowSync.OrderedMap

/-!
# Reconciliation

The decisions that keep the tables of clients and of the service in step, as functions on rows and
mutations: which mutations of a batch are applied and which give way, whether an edit is recent
enough to be taken, what a replacement has to write, and what is told to the client.

A mutation gives way if its row was written after the baseline of the client: the row of the
service stays, and the client learns it from the changes in the report.
-/

namespace RowSync

/-! ## Reports to clients -/

/-- What a client is told after a request for changes. -/
structure SyncReport where
  /-- The baseline that the client adopts after taking over the changes. -/
  newTimestamp : Timestamp
  /-- The changed rows, tombstones included. -/
  changes : List Row
  /-- The rows whose mutations gave way. -/
  conflicts : List RowId := []
deriving DecidableEq, Repr

namespace SyncReport

/-- The report of the rows changed after a baseline: the new baseline is the time of the latest
change, or the old one if that is later. -/
def ofChanges (base : Timestamp) (changes : List Row) : SyncReport where
  newTimestamp := changes.foldl (fun latest row => max latest row.modifiedAt) base
  changes := changes

/-- The report with the rows whose mutations gave way. -/
def withConflicts (result : SyncReport) (conflicts : List RowId) : SyncReport :=
  { result with conflicts }

/-- Whether mutations gave way. -/
def hasConflicts (result : SyncReport) : Bool := !result.conflicts.isEmpty

end SyncReport

/-- The outcome of a write that carries a claimed edit time. -/
inductive EditOutcome where
  /-- The write was taken, and this is the row now. -/
  | applied (row : Row)
  /-- The write was older than this row and was dropped. -/
  | stale (row : Row)
deriving DecidableEq, Repr

namespace EditOutcome

/-- Whether the write was taken. -/
def isApplied : EditOutcome → Bool
  | .applied _ => true
  | .stale _ => false

/-- The row as it is after the write. -/
def row : EditOutcome → Row
  | .applied row => row
  | .stale row => row

end EditOutcome

/-! ## Decisions -/

/-- Whether a row is among the changed ones. -/
def isTouched (changes : List Row) (id : RowId) : Bool := changes.any (·.id == id)

/-- A batch, divided into what is done and what gives way. -/
structure BatchSplit where
  /-- The mutations to apply, in the order of the batch. -/
  accepted : List Mutation
  /-- The rows whose mutations give way, each once, in the order of the batch. -/
  conflicts : List RowId
deriving DecidableEq, Repr

/-- Divide a batch by the rows that changed after the baseline of the client. -/
def splitBatch (changes : List Row) (batch : List Mutation) : BatchSplit where
  accepted := batch.filter fun mutation => !isTouched changes mutation.rowId
  conflicts := ((batch.map Mutation.rowId).filter (isTouched changes)).eraseDups

/-- Whether an edit made at the claimed time may replace the current row; at the same time it
may. -/
def mayReplace (current : Option Row) (claim : Timestamp) : Bool :=
  current.all fun row => row.modifiedAt ≤ claim

/-- The rows of a replacement have to have valid ids, different from each other and from those
already seen. -/
def checkReplacement (seen : List RowId) : List FlatRow → Except SyncError Unit
  | [] => .ok ()
  | row :: rest => do
    checkRowId row.id
    if row.id ∈ seen then .error (.repeatedRowId row.id)
    else checkReplacement (row.id :: seen) rest

/-- The mutations that make the given rows the only live ones: first the other live rows are
deleted, in the order of their ids, and then the given ones are written, in the order given. -/
def replacementBatch (live : List RowId) (rows : List FlatRow) :
    Except SyncError (List Mutation) := do
  checkReplacement [] rows
  let kept := rows.map FlatRow.id
  let dropped := (live.filter (· ∉ kept)).mergeSort (· ≤ ·)
  return dropped.map Mutation.delete ++ rows.map fun row => .upsert row.id row.fields

/-! ## Rows written -/

/-- Take note of a row as written, unless a row with the same id and no earlier timestamp was noted
before. -/
def noteWritten (latest : OrderedMap RowId Row) (row : Row) : OrderedMap RowId Row :=
  match latest.get? row.id with
  | some noted => if row.modifiedAt ≤ noted.modifiedAt then latest else latest.insert row.id row
  | none => latest.insert row.id row

/-- The last state of each row among the rows as written, in the order of the change log. -/
def lastWritten (written : List Row) : List Row :=
  inChangeOrder (written.foldl noteWritten ∅).values

end RowSync
