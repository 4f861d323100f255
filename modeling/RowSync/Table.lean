import RowSync.HybridClock
import RowSync.Reconcile

/-!
# Tables

The committed rows of one scope, tombstones included, with the change log: an index of all rows by
the time of their last write.
-/

namespace RowSync

/-- The committed rows of a scope. -/
structure Table where
  /-- The rows by id. -/
  rows : OrderedMap RowId Row
  /-- The change keys of all rows. -/
  index : OrderedMap ChangeKey Unit
  /-- The clock from which the timestamps of the rows were taken. -/
  clock : HybridClock
deriving DecidableEq, Repr

namespace Table

/-- The table of a scope that was never written. -/
def empty : Table := ⟨∅, ∅, .initial⟩

instance : EmptyCollection Table := ⟨empty⟩

instance : Inhabited Table := ⟨empty⟩

/-- The row with an id, tombstones included. -/
def get? (table : Table) (id : RowId) : Option Row := table.rows.get? id

/-- The live row with an id. -/
def getLive? (table : Table) (id : RowId) : Option Row := (table.get? id).filter Row.isLive

/-- The live rows in the order of their ids. -/
def liveRows (table : Table) : List Row := table.rows.values.filter Row.isLive

/-- The rows last written after a time, in the order of the change log. -/
def rowsAfter (table : Table) (time : Timestamp) : List Row :=
  (table.index.keys.filter fun key => time.addCapped 1 ≤ key.time).filterMap (table.get? ·.id)

/-- The largest timestamp assigned in the scope. -/
def highWater (table : Table) : Timestamp := table.clock.highWater

/-- The number of live rows. -/
def liveCount (table : Table) : Nat := table.liveRows.length

/-- The number of rows, tombstones included. -/
def totalCount (table : Table) : Nat := table.rows.size

/-- The table without a row, of which not even a tombstone stays. -/
def remove (table : Table) (id : RowId) : Table :=
  match table.get? id with
  | some row => { table with rows := table.rows.erase id, index := table.index.erase row.changeKey }
  | none => table

/-- The index without the entry of a row that is to be written again. -/
def indexWithout (table : Table) (id : RowId) : OrderedMap ChangeKey Unit :=
  match table.get? id with
  | some row => table.index.erase row.changeKey
  | none => table.index

/-- The table after a row was written. -/
def commitRow (table : Table) (row : Row) : Table where
  rows := table.rows.insert row.id row
  index := (table.indexWithout row.id).insert row.changeKey ()
  clock := table.clock.observe row.modifiedAt

/-! ## Rows after an operation -/

@[simp]
theorem get?_empty (id : RowId) : (∅ : Table).get? id = none := rfl

/-- A row that was written is found under its id, and all other rows are as before. -/
@[simp]
theorem get?_commitRow (table : Table) (row : Row) (id : RowId) :
    (table.commitRow row).get? id = if id = row.id then some row else table.get? id :=
  OrderedMap.get?_insert ..

/-- A row that was removed is found no more, and all other rows are as before. -/
@[simp]
theorem get?_remove (table : Table) (removed id : RowId) :
    (table.remove removed).get? id = if id = removed then none else table.get? id := by
  unfold remove
  cases h : table.get? removed with
  | none =>
    by_cases hid : id = removed
    · simp [hid, h]
    · simp [hid]
  | some row => exact OrderedMap.get?_erase ..

/-- Writing a row takes note of its timestamp. -/
@[simp]
theorem highWater_commitRow (table : Table) (row : Row) :
    (table.commitRow row).highWater = max table.highWater row.modifiedAt := rfl

end Table

end RowSync
