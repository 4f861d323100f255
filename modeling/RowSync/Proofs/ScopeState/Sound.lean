import RowSync.Proofs.ChangeLog
import RowSync.Proofs.HybridClock
import RowSync.Proofs.OrderedMap
import RowSync.Proofs.ScopeState.Basic

/-!
# Sound States

The invariant of the state of a scope (`ScopeState.Sound`): rows stand under their own ids, with
timestamps that are all different and reach up to the mark. Rows are written with timestamps ahead
of the mark (`Fresh`), so that writing keeps the invariant (`Sound.putAll`). Under the invariant the
change log lists exactly the rows written after a time, in the order of their timestamps.
-/

namespace RowSync

namespace ScopeState

/-- The rows and the mark of a scope fit together. -/
structure Sound (state : ScopeState) : Prop where
  /-- Rows stand under their own ids. -/
  keyed : ∀ {id row}, state.get? id = some row → row.id = id
  /-- No row has the timestamp zero. -/
  positive : ∀ {id row}, state.get? id = some row → 0 < row.modifiedAt
  /-- No row is ahead of the mark. -/
  le_mark : ∀ {id row}, state.get? id = some row → row.modifiedAt ≤ state.mark
  /-- Different rows have different timestamps. -/
  distinct : ∀ {id other row row'}, state.get? id = some row → state.get? other = some row' →
    row.modifiedAt = row'.modifiedAt → id = other
  /-- The mark is in range. -/
  mark_le : state.mark ≤ maxTimestamp
  /-- The mark is the timestamp of some row, unless nothing was ever written. -/
  reached : state.mark = 0 ∨ ∃ id row, state.get? id = some row ∧ row.modifiedAt = state.mark

/-- Rows that may be written to a state one after the other: their timestamps increase and are ahead
of the mark. -/
structure Fresh (state : ScopeState) (rows : List Row) : Prop where
  /-- The timestamps increase. -/
  ordered : LogOrdered rows
  /-- The timestamps are ahead of the mark. -/
  ahead : ∀ row ∈ rows, state.mark < row.modifiedAt
  /-- The timestamps are in range. -/
  inRange : ∀ row ∈ rows, row.modifiedAt ≤ maxTimestamp

variable {state : ScopeState} {row : Row} {rows : List Row} {id : RowId} {time : Timestamp}

/-! ## Rows after a write -/

/-- A written row is found under its id, and all other rows are as before. -/
@[simp]
theorem get?_put (state : ScopeState) (row : Row) (id : RowId) :
    (state.put row).get? id = if id = row.id then some row else state.get? id :=
  OrderedMap.get?_insert ..

@[simp]
theorem mark_put (state : ScopeState) (row : Row) : (state.put row).mark = row.modifiedAt := rfl

@[simp]
theorem putAll_cons (state : ScopeState) (row : Row) (rows : List Row) :
    state.putAll (row :: rows) = (state.put row).putAll rows := rfl

theorem putAll_append (state : ScopeState) (rows later : List Row) :
    state.putAll (rows ++ later) = (state.putAll rows).putAll later :=
  List.foldl_append

/-- A row that is not written stays as it was. -/
theorem get?_putAll_of_notMem (h : id ∉ rows.map Row.id) :
    (state.putAll rows).get? id = state.get? id := by
  induction rows generalizing state with
  | nil => rfl
  | cons row rest ih =>
    simp only [List.map_cons, List.mem_cons, not_or] at h
    rw [putAll_cons, ih h.2, get?_put, if_neg h.1]

/-- A row that is written is found as one of its writes left it. -/
theorem exists_get?_putAll (state : ScopeState) (h : id ∈ rows.map Row.id) :
    ∃ row ∈ rows, row.id = id ∧ (state.putAll rows).get? id = some row := by
  -- The last write of the row counts, so the rest is asked first.
  induction rows generalizing state with
  | nil => simp at h
  | cons row rest ih =>
    by_cases hrest : id ∈ rest.map Row.id
    · obtain ⟨last, hmem, hid, hget⟩ := ih (state.put row) hrest
      exact ⟨last, by simp [hmem], hid, hget⟩
    · have hid : row.id = id := by
        rcases List.mem_cons.1 h with h | h
        · exact h.symm
        · exact absurd h hrest
      refine ⟨row, by simp, hid, ?_⟩
      rw [putAll_cons, get?_putAll_of_notMem hrest, get?_put, if_pos hid.symm]

/-- Every row found after writes was there before or is one of those written. -/
theorem get?_putAll_cases (h : (state.putAll rows).get? id = some row) :
    row ∈ rows ∨ id ∉ rows.map Row.id ∧ state.get? id = some row := by
  by_cases hid : id ∈ rows.map Row.id
  · obtain ⟨last, hmem, -, hget⟩ := exists_get?_putAll state hid
    rw [h] at hget
    cases hget
    exact .inl hmem
  · rw [get?_putAll_of_notMem hid] at h
    exact .inr ⟨hid, h⟩

/-! ## Fresh rows -/

/-- The first of some fresh rows is ahead, and the others are fresh after it. -/
theorem fresh_cons : state.Fresh (row :: rows) ↔
    state.mark < row.modifiedAt ∧ row.modifiedAt ≤ maxTimestamp ∧ (state.put row).Fresh rows := by
  constructor
  · -- The mark after the first row is its time, of which the others are ahead.
    intro h
    obtain ⟨hfirst, hordered⟩ := List.pairwise_cons.1 h.ordered
    refine ⟨h.ahead row (by simp), h.inRange row (by simp), hordered, hfirst, ?_⟩
    intro other hother
    exact h.inRange other (by simp [hother])
  · rintro ⟨hlt, hle, h⟩
    refine ⟨List.pairwise_cons.2 ⟨h.ahead, h.ordered⟩, ?_, ?_⟩
    · intro other hother
      rcases List.mem_cons.1 hother with rfl | hother
      · exact hlt
      · exact UInt64.lt_trans hlt (h.ahead other hother)
    · intro other hother
      rcases List.mem_cons.1 hother with rfl | hother
      · exact hle
      · exact h.inRange other hother

theorem fresh_nil : state.Fresh [] := ⟨.nil, by simp, by simp⟩

/-- Fresh rows may be followed by rows that are fresh after them. -/
theorem fresh_append {later : List Row} :
    state.Fresh (rows ++ later) ↔ state.Fresh rows ∧ (state.putAll rows).Fresh later := by
  induction rows generalizing state with
  | nil => simp [fresh_nil, putAll]
  | cons row rest ih => rw [List.cons_append, fresh_cons, fresh_cons, ih, putAll_cons]; tauto

/-- The mark never goes back. -/
theorem Fresh.mark_le_mark (h : state.Fresh rows) : state.mark ≤ (state.putAll rows).mark := by
  induction rows generalizing state with
  | nil => exact UInt64.le_refl _
  | cons row rest ih =>
    obtain ⟨hlt, -, hrest⟩ := fresh_cons.1 h
    exact UInt64.le_trans (UInt64.le_of_lt hlt) (ih hrest)

/-- The mark is not behind any row that was written. -/
theorem Fresh.le_mark (h : state.Fresh rows) :
    ∀ row ∈ rows, row.modifiedAt ≤ (state.putAll rows).mark := by
  induction rows generalizing state with
  | nil => simp
  | cons first rest ih =>
    obtain ⟨-, -, hrest⟩ := fresh_cons.1 h
    intro row hrow
    rcases List.mem_cons.1 hrow with rfl | hrow
    · exact hrest.mark_le_mark
    · exact ih hrest row hrow

/-! ## The invariant -/

theorem sound_initial : initial.Sound where
  keyed h := by cases h
  positive h := by cases h
  le_mark h := by cases h
  distinct h := by cases h
  mark_le := by decide
  reached := .inl rfl

/-- Writing a row with a timestamp ahead of the mark keeps a state sound. -/
theorem Sound.put (h : state.Sound) (hlt : state.mark < row.modifiedAt)
    (hle : row.modifiedAt ≤ maxTimestamp) : (state.put row).Sound where
  -- In every field the row that is found is the one written, or was found before.
  keyed {id found} hget := by
    rw [get?_put] at hget
    split at hget
    · cases hget
      exact Eq.symm ‹_›
    · exact h.keyed hget
  positive {id found} hget := by
    rw [get?_put] at hget
    split at hget
    · cases hget
      exact UInt64.lt_of_le_of_lt (UInt64.zero_le) hlt
    · exact h.positive hget
  le_mark {id found} hget := by
    rw [get?_put] at hget
    split at hget
    · cases hget
      exact UInt64.le_refl _
    · exact UInt64.le_of_lt (UInt64.lt_of_le_of_lt (h.le_mark hget) hlt)
  distinct {id other found found'} hget hget' heq := by
    -- A row that was there before is behind the mark, and the one written is ahead of it.
    rw [get?_put] at hget hget'
    split at hget <;> split at hget'
    · simp_all
    · cases hget
      exact absurd (heq ▸ h.le_mark hget') (UInt64.not_le.2 hlt)
    · cases hget'
      exact absurd (heq ▸ h.le_mark hget) (UInt64.not_le.2 hlt)
    · exact h.distinct hget hget' heq
  mark_le := hle
  reached := .inr ⟨row.id, row, by simp, rfl⟩

/-- Writing fresh rows keeps a state sound. -/
theorem Sound.putAll (h : state.Sound) (hrows : state.Fresh rows) : (state.putAll rows).Sound := by
  induction rows generalizing state with
  | nil => exact h
  | cons row rest ih =>
    -- After the first row the others are fresh for the state with it.
    obtain ⟨hlt, hle, hrest⟩ := fresh_cons.1 hrows
    exact ih (h.put hlt hle) hrest

/-! ## Reads of sound states -/

theorem Sound.mem_values_iff (h : state.Sound) :
    row ∈ state.rows.values ↔ state.get? row.id = some row :=
  OrderedMap.mem_values_iff_of_keyed h.keyed

theorem Sound.mem_liveRows_iff (h : state.Sound) :
    row ∈ state.liveRows ↔ state.get? row.id = some row ∧ row.deleted = false := by
  rw [liveRows, List.mem_filter, h.mem_values_iff, Row.isLive, Bool.not_eq_true']

/-- Of the rows with an id the first one is that found under the id. -/
theorem Sound.head?_filter_id (h : state.Sound) (id : RowId) :
    (state.rows.values.filter fun row => row.id == id).head? = state.get? id := by
  cases hget : state.get? id with
  | none =>
    rw [List.head?_eq_none_iff, List.filter_eq_nil_iff]
    intro row hrow hid
    have hfound := h.mem_values_iff.1 hrow
    rw [eq_of_beq hid, hget] at hfound
    cases hfound
  | some row =>
    -- Some row with the id is listed, and any such row is the one found under the id.
    have hid : row.id = id := h.keyed hget
    have hmem : row ∈ state.rows.values.filter fun row => row.id == id :=
      List.mem_filter.2 ⟨OrderedMap.mem_values_iff.2 ⟨id, hget⟩, by simp [hid]⟩
    obtain ⟨first, hfirst⟩ :=
      Option.isSome_iff_exists.1 (List.isSome_head?.2 (List.ne_nil_of_mem hmem))
    obtain ⟨hfirstMem, hfirstId⟩ := List.mem_filter.1 (List.mem_of_mem_head? hfirst)
    have hfound := h.mem_values_iff.1 hfirstMem
    rw [eq_of_beq hfirstId, hget] at hfound
    rw [hfirst, hfound]

theorem Sound.nodup_liveRows (h : state.Sound) : (state.liveRows.map Row.id).Nodup :=
  (OrderedMap.nodup_map_values h.keyed).sublist (List.filter_sublist.map Row.id)

/-- Rows of a sound state with the same timestamp are the same. -/
theorem Sound.pairwise_values (h : state.Sound) :
    state.rows.values.Pairwise fun a b => a.modifiedAt ≠ b.modifiedAt := by
  refine OrderedMap.pairwise_values fun {a b x y} ha hb hlt heq => ?_
  have hab : a = b := h.distinct ha hb heq
  simp [hab] at hlt

/-- The change log lists the rows written after a time. -/
theorem Sound.mem_changesAfter_iff (h : state.Sound) :
    row ∈ state.changesAfter time ↔ state.get? row.id = some row ∧ time < row.modifiedAt := by
  rw [changesAfter, mem_inChangeOrder, List.mem_filter, h.mem_values_iff, decide_eq_true_eq]

/-- The change log stands in the order of the timestamps. -/
theorem Sound.logOrdered_changesAfter (h : state.Sound) : LogOrdered (state.changesAfter time) :=
  logOrdered_inChangeOrder (h.pairwise_values.filter _)

/-- A list in log order that holds the rows written after a time is the change log. -/
theorem Sound.eq_changesAfter (h : state.Sound) (hrows : LogOrdered rows)
    (hmem : ∀ row, row ∈ rows ↔ state.get? row.id = some row ∧ time < row.modifiedAt) :
    rows = state.changesAfter time :=
  hrows.eq_of_mem_iff h.logOrdered_changesAfter fun row => by
    rw [hmem, h.mem_changesAfter_iff]

/-- A report of all changes after a time that is not ahead tells the mark as the new baseline. -/
theorem Sound.newTimestamp_ofChanges (h : state.Sound) (htime : time ≤ state.mark) :
    (SyncReport.ofChanges time (state.changesAfter time)).newTimestamp = state.mark := by
  -- The baseline told is the latest of the base and the times told, which the mark bounds.
  refine foldl_max_modifiedAt htime (fun row hrow => ?_) ?_
  · exact h.le_mark (h.mem_changesAfter_iff.1 hrow).1
  · by_cases heq : time = state.mark
    · exact .inl heq
    · -- The row that was written last is a change after the time.
      have hlt : time < state.mark := UInt64.lt_of_le_of_ne htime heq
      right
      rcases h.reached with hzero | ⟨id, row, hget, hmark⟩
      · rw [hzero] at hlt
        exact absurd hlt (UInt64.not_lt.2 UInt64.zero_le)
      · have hid : row.id = id := h.keyed hget
        subst hid
        exact ⟨row, h.mem_changesAfter_iff.2 ⟨hget, hmark ▸ hlt⟩, hmark⟩

/-- The change log names no row twice. -/
theorem Sound.nodup_changesAfter (h : state.Sound) :
    ((state.changesAfter time).map Row.id).Nodup := by
  refine List.pairwise_map.2 (h.logOrdered_changesAfter.imp_of_mem fun {a b} ha hb hlt heq => ?_)
  rw [h.mem_changesAfter_iff] at ha hb
  -- Both rows are the one found under the id, which is not later than itself.
  have hab : a = b := by
    rw [heq, hb.1] at ha
    exact (Option.some.inj ha.1).symm
  rw [hab] at hlt
  exact UInt64.lt_irrefl _ hlt

end ScopeState

end RowSync
