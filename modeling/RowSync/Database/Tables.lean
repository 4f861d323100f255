import RowSync.Json.Printer
import RowSync.OrderedMap
import RowSync.Wire

/-!
# Database Tables

The two tables in which a database keeps rows, `sync_rows` and `local_rows`. Both are keyed by
scope and row id. A database knows nothing of payloads: the column holds JSON text, which may be
that of any value, and a row whose text is not that of an object cannot be read.

A payload is written as text and read back from it. All of it reads back as it was, apart from
doubles: the shortest text of a double may read back as a neighbour of it.
-/

namespace RowSync.Database

/-- The primary key of both tables. -/
structure RowKey where
  /-- The column `table_name`. -/
  table : String
  /-- The column `user_id`. -/
  user : String
  /-- The column `unique_id`. -/
  id : RowId
deriving DecidableEq, Repr

namespace RowKey

/-- Keys are ordered column by column. -/
instance : Ord RowKey :=
  ⟨compareLex (compareOn table) (compareLex (compareOn user) (compareOn id))⟩

instance : Std.TransOrd RowKey :=
  inferInstanceAs
    (Std.TransCmp (compareLex (compareOn table) (compareLex (compareOn user) (compareOn id))))

instance : Std.LawfulEqOrd RowKey where
  eq_of_compare {a b} h := by
    obtain ⟨ta, ua, ia⟩ := a
    obtain ⟨tb, ub, ib⟩ := b
    obtain ⟨ht, h⟩ := Ordering.then_eq_eq.1
      (show (compare ta tb).then ((compare ua ub).then (compare ia ib)) = .eq from h)
    obtain ⟨hu, hi⟩ := Ordering.then_eq_eq.1 h
    rw [Std.LawfulEqOrd.eq_of_compare ht, Std.LawfulEqOrd.eq_of_compare hu,
      Std.LawfulEqOrd.eq_of_compare hi]

/-- The key of a row of a scope. -/
def ofScope (scope : Scope) (id : RowId) : RowKey := ⟨scope.table, scope.user, id⟩

/-- Whether the key belongs to a scope. -/
def isOf (scope : Scope) (key : RowKey) : Bool := key.table == scope.table && key.user == scope.user

end RowKey

/-- The text that keeps a payload. -/
def payloadText (payload : Payload) : String := payload.toJson.text

/-- The payload that a text keeps, if it is that of an object. -/
def readPayload? (text : String) : Option Payload := (Payload.decode.ofText text).toOption

/-- The columns of `sync_rows` after the key. -/
structure StoredRow where
  /-- The column `payload`. -/
  payload : String
  /-- The column `modified_at`. -/
  modifiedAt : Int64
  /-- The column `deleted`. -/
  deleted : Bool
deriving DecidableEq, Repr

namespace StoredRow

/-- The columns that keep a row. -/
def ofRow (row : Row) : StoredRow := ⟨payloadText row.payload, row.modifiedAt.toInt64, row.deleted⟩

/-- A time from the database as a timestamp; one before the epoch counts as zero. -/
def timestamp (time : Int64) : Timestamp := (max time 0).toUInt64

/-- The row that the columns keep, if the payload can be read. -/
def toRow? (id : RowId) (stored : StoredRow) : Option Row :=
  (readPayload? stored.payload).map fun payload =>
    ⟨id, payload, timestamp stored.modifiedAt, stored.deleted⟩

end StoredRow

/-- The content of the database. -/
structure Tables where
  /-- The table `sync_rows`. -/
  syncRows : OrderedMap RowKey StoredRow
  /-- The table `local_rows`, with the column `payload` after the key. -/
  localRows : OrderedMap RowKey String
deriving DecidableEq, Repr

namespace Tables

/-- The tables without rows. -/
def empty : Tables := ⟨∅, ∅⟩

instance : EmptyCollection Tables := ⟨empty⟩

instance : Inhabited Tables := ⟨empty⟩

/-- The rows of a scope in the order of their ids. -/
def ofScope {α : Type} (rows : OrderedMap RowKey α) (scope : Scope) : List (RowId × α) :=
  (rows.toList.filter fun row => row.1.isOf scope).map fun row => (row.1.id, row.2)

end Tables

end RowSync.Database
