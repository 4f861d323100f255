import Mathlib.Data.List.Sort
import RowSync.Proofs.HybridClock
import RowSync.Reconcile

/-!
# The Order of the Change Log

Rows in the order of the change log. No two rows of a scope have the same timestamp, so that the
order of the timestamps decides alone and determines the list from the rows in it
(`LogOrdered.eq_of_mem_iff`). Putting rows in change order gives this list
(`logOrdered_inChangeOrder`).
-/

namespace RowSync

namespace ChangeKey

/-- A change key that does not come after another one has no later time. -/
theorem time_le_of_compare {a b : ChangeKey} (h : (compare a b).isLE) : a.time ≤ b.time := by
  have h' : ((compare a.time b.time).then (compare a.id b.id)).isLE := h
  rw [Ordering.isLE_then_iff_and] at h'
  exact Std.isLE_compare.1 h'.1

end ChangeKey

/-- The rows stand in the order of their timestamps, which are all different. -/
def LogOrdered (rows : List Row) : Prop := rows.Pairwise fun a b => a.modifiedAt < b.modifiedAt

instance (rows : List Row) : Decidable (LogOrdered rows) :=
  inferInstanceAs (Decidable (rows.Pairwise _))

namespace LogOrdered

/-- Lists in log order that hold the same rows are equal. -/
theorem eq_of_mem_iff {rows others : List Row} (hrows : LogOrdered rows)
    (hothers : LogOrdered others) (h : ∀ row, row ∈ rows ↔ row ∈ others) : rows = others := by
  -- A relation that holds one way only leaves just one order for the rows.
  have : Std.Irrefl fun a b : Row => a.modifiedAt < b.modifiedAt := ⟨fun a => UInt64.lt_irrefl _⟩
  have : Std.Antisymm fun a b : Row => a.modifiedAt < b.modifiedAt :=
    ⟨fun a b hab hba => absurd (UInt64.lt_trans hab hba) (UInt64.lt_irrefl _)⟩
  exact List.Pairwise.eq_of_mem_iff hrows hothers h

/-- Rows in log order may be followed by rows in log order that are all later. -/
theorem append {rows later : List Row} (hrows : LogOrdered rows) (hlater : LogOrdered later)
    (h : ∀ row ∈ rows, ∀ other ∈ later, row.modifiedAt < other.modifiedAt) :
    LogOrdered (rows ++ later) :=
  List.pairwise_append.2 ⟨hrows, hlater, h⟩

end LogOrdered

/-! ## The latest of some rows -/

/-- The latest timestamp among rows and a base is known from the bounds that it reaches. -/
theorem foldl_max_modifiedAt {rows : List Row} {base top : Timestamp} (hbase : base ≤ top)
    (hrows : ∀ row ∈ rows, row.modifiedAt ≤ top)
    (hreached : base = top ∨ ∃ row ∈ rows, row.modifiedAt = top) :
    rows.foldl (fun latest row => max latest row.modifiedAt) base = top := by
  induction rows generalizing base with
  | nil =>
    rcases hreached with hbase | ⟨row, hrow, -⟩
    · exact hbase
    · simp at hrow
  | cons first rest ih =>
    obtain ⟨hcases, hleft, hright⟩ := Timestamp.max_cases base first.modifiedAt
    have hfirst : first.modifiedAt ≤ top := hrows first (by simp)
    have hle : max base first.modifiedAt ≤ top := by
      rcases hcases with heq | heq
      · rw [heq]
        exact hbase
      · rw [heq]
        exact hfirst
    refine ih hle (fun row hrow => hrows row (by simp [hrow])) ?_
    -- The top is reached by the base, by the first row or by a row after it.
    rcases hreached with rfl | ⟨row, hrow, htop⟩
    · exact .inl (UInt64.le_antisymm hle hleft)
    · rcases List.mem_cons.1 hrow with rfl | hrow
      · rw [htop] at hright
        exact .inl (UInt64.le_antisymm (htop ▸ hle) (htop ▸ hright))
      · exact .inr ⟨row, hrow, htop⟩

/-! ## Change order -/

@[simp]
theorem mem_inChangeOrder {rows : List Row} {row : Row} : row ∈ inChangeOrder rows ↔ row ∈ rows :=
  List.mem_mergeSort

/-- Rows in change order have change keys that do not decrease. -/
theorem pairwise_inChangeOrder (rows : List Row) :
    (inChangeOrder rows).Pairwise fun a b => (compare a.changeKey b.changeKey).isLE := by
  -- Sorting asks for a total order; the one on change keys is, by time and then by id.
  have htotal (a b : Row) :
      (compare a.changeKey b.changeKey).isLE || (compare b.changeKey a.changeKey).isLE := by
    have hswap : compare b.changeKey a.changeKey = (compare a.changeKey b.changeKey).swap :=
      Std.OrientedCmp.eq_swap
    rw [hswap]
    cases compare a.changeKey b.changeKey <;> rfl
  exact List.pairwise_mergeSort (fun _ _ _ => Std.TransCmp.isLE_trans) htotal rows

/-- Rows with different timestamps are put in log order. -/
theorem logOrdered_inChangeOrder {rows : List Row}
    (hdistinct : rows.Pairwise fun a b => a.modifiedAt ≠ b.modifiedAt) :
    LogOrdered (inChangeOrder rows) := by
  have hperm : (inChangeOrder rows).Pairwise fun a b => a.modifiedAt ≠ b.modifiedAt :=
    (List.mergeSort_perm rows _).symm.pairwise hdistinct fun h => h.symm
  -- Keys that do not decrease have times that do not, and no two times are the same.
  refine (pairwise_inChangeOrder rows).imp₂ (fun a b hle hne => ?_) hperm
  have hle' : a.modifiedAt ≤ b.modifiedAt := ChangeKey.time_le_of_compare hle
  exact UInt64.lt_of_le_of_ne hle' hne

end RowSync
