import RowSync.Proofs.ScopeState.Sound
import RowSync.Table

/-!
# The State of a Table

A table is a state of a scope together with an index. The index holds the change keys of the rows
and nothing else (`Table.Indexed`), which every write keeps (`Indexed.commitRow`), so that the rows
it lists are the change log of the state (`rowsAfter_eq`).
-/

namespace RowSync

namespace Table

variable {table : Table} {row : Row} {rows : List Row} {id : RowId} {key : ChangeKey}
  {time : Timestamp}

/-- The state of the scope that a table keeps. -/
def state (table : Table) : ScopeState := ⟨table.rows, table.highWater⟩

/-- The index lists every row once, by the time of its last write. -/
structure Indexed (table : Table) : Prop where
  /-- Rows stand under their own ids. -/
  keyed : ∀ {id row}, table.get? id = some row → row.id = id
  /-- The index holds the change keys of the rows and no others. -/
  exact : ∀ key, table.index.contains key ↔ ∃ row, table.get? key.id = some row ∧
    row.changeKey = key

/-- The rows, the index and the clock of a table fit together. -/
structure Sound (table : Table) : Prop where
  /-- The state is sound. -/
  state : table.state.Sound
  /-- The index is that of the rows. -/
  indexed : table.Indexed

/-! ## Writes -/

/-- The index without the entry of a row lists the rows with other ids. -/
theorem Indexed.contains_indexWithout (h : table.Indexed) :
    (table.indexWithout id).contains key ↔ key.id ≠ id ∧ table.index.contains key := by
  rw [h.exact, indexWithout]
  cases hget : table.get? id with
  | none =>
    rw [h.exact]
    constructor
    · rintro ⟨row, hrow, hkey⟩
      refine ⟨fun heq => ?_, row, hrow, hkey⟩
      rw [heq, hget] at hrow
      cases hrow
    · exact And.right
  | some old =>
    -- The entry that is dropped is the only one with this id.
    have hold : old.changeKey.id = id := h.keyed hget
    rw [OrderedMap.contains, OrderedMap.get?_erase]
    constructor
    · intro hkey
      split at hkey
      · cases hkey
      · rename_i hne
        obtain ⟨row, hrow, hrowKey⟩ := (h.exact key).1 hkey
        refine ⟨fun heq => hne ?_, row, hrow, hrowKey⟩
        rw [heq, hget] at hrow
        cases hrow
        exact hrowKey.symm
    · rintro ⟨hne, hrow⟩
      have hother : key ≠ old.changeKey := by
        rintro rfl
        exact hne hold
      rw [if_neg hother]
      exact (h.exact key).2 hrow

/-- Writing a row keeps the index that of the rows. -/
theorem Indexed.commitRow (h : table.Indexed) (row : Row) : (table.commitRow row).Indexed where
  keyed {id found} hget := by
    rw [get?_commitRow] at hget
    split at hget
    · cases hget
      exact Eq.symm ‹_›
    · exact h.keyed hget
  exact key := by
    -- The old entry of the row is taken out before the new one is put in.
    have hcontains : (table.commitRow row).index.contains key ↔
        key = row.changeKey ∨ (table.indexWithout row.id).contains key := by
      simp only [Table.commitRow, OrderedMap.contains, OrderedMap.get?_insert]
      split <;> simp_all
    rw [hcontains, h.contains_indexWithout, get?_commitRow]
    -- Of the keys with the id of the row just the new one is listed; the others stay.
    by_cases hid : key.id = row.id
    · simp only [hid, ne_eq, not_true_eq_false, false_and, or_false, ↓reduceIte,
        Option.some.injEq, exists_eq_left']
      exact eq_comm
    · have hother : key ≠ row.changeKey := by
        rintro rfl
        exact hid rfl
      rw [if_neg hid, ← h.exact]
      simp [hother, hid]

theorem Indexed.commitRows (h : table.Indexed) (rows : List Row) :
    (rows.foldl Table.commitRow table).Indexed := by
  induction rows generalizing table with
  | nil => exact h
  | cons row rest ih => exact ih (h.commitRow row)

theorem indexed_empty : (∅ : Table).Indexed where
  keyed h := by cases h
  exact key := by
    have hnone : (∅ : Table).index.contains key = false := rfl
    simp [hnone]

theorem sound_empty : (∅ : Table).Sound := ⟨ScopeState.sound_initial, indexed_empty⟩

/-! ## Reads -/

/-- The keys of the index are the change keys of the rows. -/
theorem Indexed.mem_keys_iff (h : table.Indexed) : key ∈ table.index.keys ↔
    ∃ row, table.get? key.id = some row ∧ row.changeKey = key := by
  rw [OrderedMap.mem_keys_iff, ← OrderedMap.contains_eq_true_iff, h.exact]

/-- The rows that the index lists after a time are those written after it. -/
theorem Sound.mem_rowsAfter_iff (h : table.Sound) :
    row ∈ table.rowsAfter time ↔ table.get? row.id = some row ∧ time < row.modifiedAt := by
  -- The range begins at the successor of the time, which is capped but not for rows in range.
  have hrange (hget : table.get? row.id = some row) :
      time.addCapped 1 ≤ row.modifiedAt ↔ time < row.modifiedAt :=
    Timestamp.addCapped_one_le_iff
      (UInt64.le_trans (h.state.le_mark hget) h.state.mark_le)
  rw [rowsAfter, List.mem_filterMap]
  constructor
  · rintro ⟨key, hkey, hget⟩
    rw [List.mem_filter, h.indexed.mem_keys_iff, decide_eq_true_eq] at hkey
    obtain ⟨⟨found, hfound, rfl⟩, htime⟩ := hkey
    have heq : found = row := by
      rw [hfound] at hget
      exact Option.some.inj hget
    subst heq
    exact ⟨hfound, (hrange hfound).1 htime⟩
  · rintro ⟨hget, htime⟩
    refine ⟨row.changeKey, ?_, hget⟩
    rw [List.mem_filter, h.indexed.mem_keys_iff, decide_eq_true_eq]
    exact ⟨⟨row, hget, rfl⟩, (hrange hget).2 htime⟩

/-- The rows that the index lists stand in the order of their timestamps. -/
theorem Sound.logOrdered_rowsAfter (h : table.Sound) : LogOrdered (table.rowsAfter time) := by
  refine List.pairwise_filterMap.2 ((OrderedMap.pairwise_keys.filter _).imp_of_mem ?_)
  intro a b ha hb hlt row hrow other hother
  -- The rows that are found are those whose keys are listed.
  rw [List.mem_filter, h.indexed.mem_keys_iff] at ha hb
  obtain ⟨⟨found, hfound, rfl⟩, -⟩ := ha
  obtain ⟨⟨found', hfound', rfl⟩, -⟩ := hb
  obtain rfl : found = row := Option.some.inj (hfound.symm.trans hrow)
  obtain rfl : found' = other := Option.some.inj (hfound'.symm.trans hother)
  -- The keys increase, and rows with the same timestamp would be the same row.
  have hle : found.modifiedAt ≤ found'.modifiedAt :=
    ChangeKey.time_le_of_compare (by rw [hlt]; rfl)
  refine UInt64.lt_of_le_of_ne hle fun heq => ?_
  have hid : found.changeKey.id = found'.changeKey.id := h.state.distinct hfound hfound' heq
  have hkey : found.changeKey = found'.changeKey := by
    simp only [Row.changeKey, heq, ChangeKey.mk.injEq, true_and]
    exact hid
  rw [hkey] at hlt
  simp at hlt

/-- The rows that the index lists are the change log of the state. -/
theorem Sound.rowsAfter_eq (h : table.Sound) (time : Timestamp) :
    table.rowsAfter time = table.state.changesAfter time :=
  h.state.eq_changesAfter h.logOrdered_rowsAfter fun _ => h.mem_rowsAfter_iff

end Table

end RowSync
