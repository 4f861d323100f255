import RowSync.Row

/-!
# Change Keys

The order of the change log: rows stand in the order of their last writes, and rows last written at
the same time in the order of their ids.
-/

namespace RowSync

/-- The place of a row in the change log. -/
structure ChangeKey where
  /-- The timestamp of the last write. -/
  time : Timestamp
  /-- The row written. -/
  id : RowId
deriving DecidableEq, Repr

namespace ChangeKey

/-- Change keys are ordered by time and then by row id. -/
instance : Ord ChangeKey := ⟨compareLex (compareOn time) (compareOn id)⟩

instance : Std.TransOrd ChangeKey :=
  inferInstanceAs (Std.TransCmp (compareLex (compareOn time) (compareOn id)))

instance : Std.LawfulEqOrd ChangeKey where
  eq_of_compare {a b} h := by
    obtain ⟨ta, ia⟩ := a
    obtain ⟨tb, ib⟩ := b
    obtain ⟨ht, hi⟩ := Ordering.then_eq_eq.1
      (show (compare ta tb).then (compare ia ib) = .eq from h)
    rw [Std.LawfulEqOrd.eq_of_compare ht, Std.LawfulEqOrd.eq_of_compare hi]

end ChangeKey

/-- The place of a row in the change log. -/
def Row.changeKey (row : Row) : ChangeKey := ⟨row.modifiedAt, row.id⟩

/-- Rows in the order of the change log; rows with the same place stay as they are. -/
def inChangeOrder (rows : List Row) : List Row :=
  rows.mergeSort fun a b => (compare a.changeKey b.changeKey).isLE

end RowSync
