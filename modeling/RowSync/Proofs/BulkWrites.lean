import RowSync.Proofs.Exchange

/-!
# Bulk Writes

What the calls do that write a batch as it is (`ScopeState.BulkWritten`): every row that the batch
names is written at a timestamp ahead of the mark, and told is the last state of each of them. Since
rows are written with increasing timestamps, the rows told are the changes after the mark of before
(`ScopeState.lastWritten_eq_changesAfter`).
-/

namespace RowSync

variable {limits : Limits} {now : Timestamp}

/-! ## The ids of a replacement -/

/-- The check of the ids lets a replacement pass just if they are valid and all different, also from
those already seen. -/
theorem checkReplacement_eq_ok_iff {seen : List RowId} {given : List FlatRow} :
    checkReplacement seen given = .ok () ↔ (∀ row ∈ given, checkRowId row.id = .ok ()) ∧
      (given.map FlatRow.id).Nodup ∧ ∀ row ∈ given, row.id ∉ seen := by
  induction given generalizing seen with
  | nil => simp [checkReplacement]
  | cons row rest ih =>
    rw [checkReplacement, List.forall_mem_cons, List.map_cons, List.nodup_cons,
      List.forall_mem_cons]
    cases hid : checkRowId row.id with
    | error e => simp [bind, Except.bind]
    | ok _ =>
      show (if row.id ∈ seen then _ else checkReplacement (row.id :: seen) rest) = _ ↔ _
      by_cases hseen : row.id ∈ seen
      · simp [hseen]
      · rw [if_neg hseen, ih]
        simp only [List.mem_cons, not_or, List.mem_map]
        grind

namespace ScopeState

variable {state state' : ScopeState} {rows : List Row} {row : Row} {batch : List Mutation}
  {report : SyncReport}

/-! ## The last state of each row written -/

/-- Rows noted in log order are noted as they are written, each over those of before. -/
theorem foldl_noteWritten {latest : OrderedMap RowId Row} {mark : Timestamp}
    (hrows : LogOrdered rows) (hahead : ∀ row ∈ rows, ∀ noted ∈ latest.values,
      noted.modifiedAt < row.modifiedAt) :
    rows.foldl noteWritten latest = ((⟨latest, mark⟩ : ScopeState).putAll rows).rows := by
  induction rows generalizing latest mark with
  | nil => rfl
  | cons row rest ih =>
    obtain ⟨hfirst, hrest⟩ := List.pairwise_cons.1 hrows
    -- A row noted before under the same id is older, and gives way.
    have hnote : noteWritten latest row = latest.insert row.id row := by
      rw [noteWritten]
      cases hget : latest.get? row.id with
      | none => rfl
      | some noted =>
        have hlt := hahead row (by simp) noted (OrderedMap.mem_values_iff.2 ⟨row.id, hget⟩)
        exact if_neg (UInt64.not_le.2 hlt)
    rw [List.foldl_cons, hnote]
    refine ih hrest fun other hother noted hnoted => ?_
    obtain ⟨id, hget⟩ := OrderedMap.mem_values_iff.1 hnoted
    rw [OrderedMap.get?_insert] at hget
    split at hget
    · cases hget
      exact hfirst other hother
    · exact hahead other (by simp [hother]) noted (OrderedMap.mem_values_iff.2 ⟨id, hget⟩)

/-- What is found of a row after it was written does not depend on the state before. -/
theorem get?_putAll_of_mem {id : RowId} (h : id ∈ rows.map Row.id) (state other : ScopeState) :
    (state.putAll rows).get? id = (other.putAll rows).get? id := by
  induction rows generalizing state other with
  | nil => simp at h
  | cons row rest ih =>
    by_cases hrest : id ∈ rest.map Row.id
    · exact ih hrest _ _
    · have hid : id = row.id := by
        rcases List.mem_cons.1 h with hid | hmem
        · exact hid
        · exact absurd hmem hrest
      rw [putAll_cons, putAll_cons, get?_putAll_of_notMem hrest, get?_putAll_of_notMem hrest,
        get?_put, get?_put, if_pos hid, if_pos hid]

/-- The last states of rows that were written are the changes after the mark of before. -/
theorem lastWritten_eq_changesAfter (hsound : state.Sound) (hfresh : state.Fresh rows) :
    lastWritten rows = (state.putAll rows).changesAfter state.mark := by
  -- Alone, without the state before, the rows are written just as well.
  have halone : initial.Fresh rows :=
    ⟨hfresh.ordered, fun row hrow => UInt64.lt_of_le_of_lt UInt64.zero_le (hfresh.ahead row hrow),
      hfresh.inRange⟩
  have hsound' : (initial.putAll rows).Sound := sound_initial.putAll halone
  have hnoted : rows.foldl noteWritten ∅ = (initial.putAll rows).rows :=
    foldl_noteWritten hfresh.ordered (by simp [OrderedMap.mem_values_iff])
  refine (hsound.putAll hfresh).eq_changesAfter ?_ fun row => ?_
  · rw [lastWritten, hnoted]
    exact logOrdered_inChangeOrder hsound'.pairwise_values
  · rw [← (hsound.putAll hfresh).mem_changesAfter_iff, mem_changesAfter_mark_iff hsound hfresh,
      lastWritten, mem_inChangeOrder, hnoted, hsound'.mem_values_iff]
    constructor
    · intro hget
      rcases get?_putAll_cases hget with hmem | ⟨-, hinitial⟩
      · have hid := List.mem_map_of_mem (f := Row.id) hmem
        exact ⟨(get?_putAll_of_mem hid state initial).trans hget, hid⟩
      · cases hinitial
    · rintro ⟨hget, hid⟩
      exact (get?_putAll_of_mem hid initial state).trans hget

/-! ## Calls -/

/-- What a bulk write does, where the given ids are those of the rows that it names. -/
structure BulkWritten (state state' : ScopeState) (named : List RowId) (report : SyncReport) :
    Prop where
  /-- A row that is not named is stored as it was. -/
  untouched : ∀ id, id ∉ named → state'.get? id = state.get? id
  /-- Told are the changes after the mark of before. -/
  changes : report.changes = state'.changesAfter state.mark
  /-- The changes after the mark of before are the rows that are named. -/
  mem_changes : ∀ row, row ∈ report.changes ↔ state'.get? row.id = some row ∧ row.id ∈ named
  /-- A row that is named is there. -/
  written : ∀ id ∈ named, ∃ row, state'.get? id = some row
  /-- The new baseline is the mark. -/
  newTimestamp : report.newTimestamp = state'.mark

/-- A batch that is applied as it is writes the rows that its mutations name. -/
theorem bulkWritten_of_applyBatch (hsound : state.Sound)
    (h : state.applyBatch now batch = .ok (report, state')) :
    state.BulkWritten state' (batch.map Mutation.rowId) report := by
  obtain ⟨⟨rows, last⟩, happly, h⟩ := bind_eq_ok_iff.1 h
  cases h
  obtain ⟨hids, rfl, hfresh⟩ := applyAll_eq_ok hsound happly
  have hchanges := lastWritten_eq_changesAfter hsound hfresh
  rw [← hids]
  exact
    { untouched := fun id hid => get?_putAll_of_notMem hid
      changes := hchanges
      mem_changes := fun row => by
        rw [← mem_changesAfter_mark_iff hsound hfresh, ← hchanges]
        rfl
      written := fun id hid => by
        obtain ⟨row, -, -, hget⟩ := exists_get?_putAll state hid
        exact ⟨row, hget⟩
      newTimestamp := rfl }

/-- A batch that is pushed writes the rows that its mutations name. -/
theorem bulkWritten_of_push (hsound : state.Sound)
    (h : state.push limits now batch = .ok (report, state')) :
    state.BulkWritten state' (batch.map Mutation.rowId) report := by
  obtain ⟨_, -, h⟩ := bind_eq_ok_iff.1 h
  exact bulkWritten_of_applyBatch hsound h

/-- The mutations of a replacement are those of the given rows and of the other live ones. -/
theorem mem_replacementBatch {live : List RowId} {given : List FlatRow} {id : RowId}
    (h : replacementBatch live given = .ok batch) :
    id ∈ batch.map Mutation.rowId ↔ id ∈ given.map FlatRow.id ∨ id ∈ live := by
  obtain ⟨_, -, h⟩ := bind_eq_ok_iff.1 h
  cases h
  simp only [List.map_append, List.map_map, List.mem_append, List.mem_map, Function.comp_apply,
    Mutation.rowId, List.mem_mergeSort, List.mem_filter, decide_eq_true_eq]
  grind

/-- A replacement writes the given rows and the other live ones. -/
theorem bulkWritten_of_replace (hsound : state.Sound) {given : List FlatRow}
    (h : state.replace limits now given = .ok (report, state')) :
    state.BulkWritten state' (given.map FlatRow.id ++ state.liveRows.map Row.id) report := by
  obtain ⟨_, -, h⟩ := bind_eq_ok_iff.1 h
  obtain ⟨batch, hbatch, h⟩ := bind_eq_ok_iff.1 h
  have hwritten := bulkWritten_of_applyBatch hsound h
  have hnamed (id : RowId) : id ∈ given.map FlatRow.id ++ state.liveRows.map Row.id ↔
      id ∈ batch.map Mutation.rowId := by
    rw [List.mem_append, mem_replacementBatch hbatch]
  exact
    { hwritten with
      untouched := fun id hid => hwritten.untouched id fun hmem => hid ((hnamed id).2 hmem)
      mem_changes := fun row => by rw [hwritten.mem_changes, hnamed]
      written := fun id hid => hwritten.written id ((hnamed id).1 hid) }

end ScopeState

end RowSync
