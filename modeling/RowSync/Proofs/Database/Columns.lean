import RowSync.Proofs.Database.Isolation
import RowSync.Proofs.Timestamps

/-!
# Columns of Written Rows

What the columns of a scope tell of the rows that were written to it (`Database.ColumnsOf`). Under
each id are the columns of the row that was last written with it. Every time is stored as the word
of the timestamp and read back as the timestamp, none counting as zero for being before the epoch,
so that a row reads back as it was written up to its payload, which is what its text reads back as.
The latest time of the scope is the largest timestamp.

This holds of any database that records a state with a history (`Database.Records.columnsOf`), and
also within a transaction: an operation that a script comes to (`Script.Reaches`) finds the rows
that the transaction has written before, behind those of the history.
-/

namespace RowSync

open Database

variable {scope : Scope} {now : Timestamp} {tables : Tables} {state : ScopeState} {row : Row}
  {history : List Row} {id : RowId}

/-- The largest of the timestamps of rows, zero if there are none. -/
def largestTime (rows : List Row) : Timestamp := (rows.map Row.modifiedAt).foldl max 0

namespace ScopeState

/-- The row that was last written with an id was written, and has that id. -/
theorem of_lastWith_eq_some (h : lastWith id history = some row) : row ∈ history ∧ row.id = id :=
  ⟨List.mem_reverse.1 (List.mem_of_find?_eq_some h), of_decide_eq_true (List.find?_some h :)⟩

/-- The mark is the largest timestamp that was assigned. -/
theorem HasHistory.mark_eq_largestTime (h : state.HasHistory history) :
    state.mark = largestTime history := by
  rw [largestTime, List.foldl_map]
  refine (foldl_max_modifiedAt UInt64.zero_le ?_ ?_).symm
  · rw [h.eq_putAll]
    exact h.fresh.le_mark
  · -- The last row has the mark for its timestamp, if there is any row.
    rw [h.eq_putAll, mark_putAll, List.getLast?_map]
    cases hlast : history.getLast? with
    | none => exact .inl rfl
    | some last => exact .inr ⟨last, List.mem_of_getLast? hlast, rfl⟩

end ScopeState

namespace Database

/-! ## Columns -/

/-- The columns of rows of sync tables that a statement returns. -/
def Statement.rowsRead {α : Type} (statement : Statement α) (tables : Tables) :
    List (RowId × StoredRow) :=
  match statement with
  | .row scope id => ((Statement.row scope id).eval tables).1
  | .liveRows scope => ((Statement.liveRows scope).eval tables).1
  | .changesAfter scope time => ((Statement.changesAfter scope time).eval tables).1
  | _ => []

/-- The columns of a scope are those of the rows that were written to it. -/
structure ColumnsOf (tables : Tables) (scope : Scope) (written : List Row) : Prop where
  /-- Under an id are the columns of the row that was last written with it. -/
  stored : ∀ id, tables.syncRows.get? (.ofScope scope id) =
    (ScopeState.lastWith id written).map StoredRow.ofRow
  /-- What a statement returns of the scope are the columns of such rows. -/
  returned : ∀ {α : Type} (statement : Statement α), statement.table? = some (.sync scope) →
    ∀ columns ∈ statement.rowsRead tables,
      ∃ row, ScopeState.lastWith columns.1 written = some row ∧ columns = entry row
  /-- No time counts as zero, and every time reads back as the timestamp. -/
  times : ∀ row ∈ written,
    max (StoredRow.ofRow row).modifiedAt 0 = (StoredRow.ofRow row).modifiedAt ∧
      StoredRow.timestamp (StoredRow.ofRow row).modifiedAt = row.modifiedAt
  /-- A row reads back as it was written, up to what the text of its payload reads back as. -/
  rows : ∀ row ∈ written, (StoredRow.ofRow row).toRow? row.id =
    (readPayload? (payloadText row.payload)).map fun payload => { row with payload }
  /-- The latest time does not count as zero, and reads back as the largest timestamp. -/
  latest : max ((Statement.highWater scope).eval tables).1 0 =
      ((Statement.highWater scope).eval tables).1 ∧
    StoredRow.timestamp ((Statement.highWater scope).eval tables).1 = largestTime written

/-- Whatever a statement returns of a scope is listed among the rows of the scope. -/
theorem mem_ofScope_of_mem_rowsRead {α : Type} {statement : Statement α}
    (hon : statement.table? = some (.sync scope)) {columns : RowId × StoredRow}
    (h : columns ∈ statement.rowsRead tables) : columns ∈ Tables.ofScope tables.syncRows scope := by
  -- Two of the statements let some rows through, the third one also puts them in order.
  cases statement with
  | row | liveRows =>
    cases hon
    exact List.mem_of_mem_filter h
  | changesAfter =>
    cases hon
    exact List.mem_of_mem_filter (List.mem_mergeSort.1 h)
  | _ => cases h

/-- The columns of a scope whose state has a history are those of the rows of the history. -/
theorem Records.columnsOf (h : Records tables scope state) (hhistory : state.HasHistory history) :
    ColumnsOf tables scope history := by
  have hstored (id : RowId) : tables.syncRows.get? (.ofScope scope id) =
      (ScopeState.lastWith id history).map StoredRow.ofRow := by
    rw [← get?_scopeRows, h.rows, OrderedMap.get?_mapValues, ← hhistory.get?_eq]
    rfl
  refine ⟨hstored, fun statement hon columns hcolumns => ?_, fun row hrow => ?_, fun row hrow => ?_,
    ?_⟩
  · -- What is returned is under its id, and so are the columns of the last row with that id.
    obtain ⟨id, stored⟩ := columns
    have hget := mem_ofScope_iff.1 (mem_ofScope_of_mem_rowsRead hon hcolumns)
    rw [hstored] at hget
    obtain ⟨row, hlast, rfl⟩ := Option.map_eq_some_iff.1 hget
    obtain ⟨-, rfl⟩ := ScopeState.of_lastWith_eq_some hlast
    exact ⟨row, hlast, rfl⟩
  · have hrange := hhistory.fresh.inRange row hrow
    exact ⟨max_toInt64_zero hrange, timestamp_toInt64 hrange⟩
  · obtain ⟨id, payload, modifiedAt, deleted⟩ := row
    have hrange : modifiedAt ≤ maxTimestamp := hhistory.fresh.inRange _ hrow
    rw [StoredRow.toRow?, StoredRow.ofRow, timestamp_toInt64 hrange]
  · rw [h.eval_highWater, ← hhistory.mark_eq_largestTime]
    exact ⟨max_toInt64_zero h.sound.mark_le, timestamp_toInt64 h.sound.mark_le⟩

/-- A row that was written reads back just if the text of its payload does. -/
theorem ColumnsOf.toRow?_eq_iff {written : List Row} (h : ColumnsOf tables scope written)
    (hrow : row ∈ written) : (StoredRow.ofRow row).toRow? row.id = some row ↔
      readPayload? (payloadText row.payload) = some row.payload := by
  obtain ⟨id, payload, modifiedAt, deleted⟩ := row
  rw [h.rows _ hrow]
  simp

end Database

/-! ## Within a transaction -/

/-- A script that is done by a writer comes to an operation, after some rows were written. -/
inductive Script.Reaches (scope : Scope) {α β : Type} (target : Operation β) (reached : Writer)
    (db' : Database) : Script α → Writer → Database → List Row → Prop
  /-- The operation is the first one. -/
  | here {next : β → Script α} : Reaches scope target reached db' (.step target next) reached db' []
  /-- The operation comes after another one that succeeds. -/
  | later {γ : Type} {operation : Operation γ} {next : γ → Script α} {result : γ}
    {writer middle : Writer} {db between : Database} {rows : List Row}
    (hwrite : operation.write scope writer db = (.ok (result, middle), between))
    (hreach : Reaches scope target reached db' (next result) middle between rows) :
    Reaches scope target reached db' (.step operation next) writer db
      (operation.written result ++ rows)

namespace Database

/-- A script that was started on the state that the tables record comes to an operation after the
rows that it wrote before, by induction on the operations done. -/
theorem Records.wrote_reaches {α β : Type} {db db' : Database} (h : Records db.tables scope state)
    {script : Script α} {target : Operation β} {writer reached : Writer} {rows : List Row}
    (hwriter : writer = .ofState scope now state)
    (hreach : script.Reaches scope target reached db' writer db rows) :
    Wrote scope now state db rows reached db' := by
  induction hreach generalizing state with
  | here =>
    rw [hwriter]
    exact h.wrote_nil now rfl
  | later hwrite hreach ih =>
    rw [hwriter] at hwrite
    have hfirst := h.wrote_operation hwrite
    exact hfirst.append (ih hfirst.records hfirst.writer_eq)

end Database

end RowSync
