import RowSync.Database.Sync
import RowSync.Proofs.Database.Session

/-!
# Reads from the Database

What the reading sessions return from a database that holds the state of a scope: the mark
(`Holds.highWater_eq`), the row with an id, the live rows and the changes after a time, each as the
state has them. They leave the database as it is.
-/

namespace RowSync.Database

variable {db : Database} {scope : Scope} {state : ScopeState} {row : Row} {rows : List Row}
  {id : RowId} {time : Timestamp}

/-! ## Columns and rows -/

/-- The columns of rows in range read back as the rows just if the text of each payload does. -/
theorem readRows_map_entry_iff (h : ∀ row ∈ rows, row.modifiedAt ≤ maxTimestamp) (db : Database) :
    readRows (rows.map entry) db = (.ok rows, db) ↔
      ∀ row ∈ rows, readPayload? (payloadText row.payload) = some row.payload := by
  induction rows with
  | nil => exact iff_of_true rfl (by simp)
  | cons row rest ih =>
    obtain ⟨htime, hrest⟩ := List.forall_mem_cons.1 h
    rw [List.forall_mem_cons, ← ih hrest, ← toRow?_ofRow_iff htime, List.map_cons, entry, readRows]
    -- The session goes on to the others with the first row as it was read.
    cases hread : (StoredRow.ofRow row).toRow? row.id with
    | none => exact iff_of_false nofun nofun
    | some found =>
      dsimp only
      constructor
      · intro hrows
        obtain ⟨others, between, hothers, hrows⟩ := bind_eq_ok hrows
        cases hrows
        exact ⟨rfl, hothers⟩
      · rintro ⟨hfound, hothers⟩
        cases hfound
        rw [bind_of_ok hothers]
        rfl

/-- The columns of rows in range whose payloads are kept read back as the rows. -/
theorem readRows_map_entry
    (h : ∀ row ∈ rows, row.modifiedAt ≤ maxTimestamp ∧ row.payload.IsKept) (db : Database) :
    readRows (rows.map entry) db = (.ok rows, db) :=
  (readRows_map_entry_iff (fun row hrow => (h row hrow).1) db).2
    fun row hrow => (h row hrow).2.reads

/-- The columns of a scope are those of the rows of its state. -/
theorem Records.ofScope_eq {tables : Tables} (h : Records tables scope state) :
    Tables.ofScope tables.syncRows scope = state.rows.values.map entry := by
  have hentries : Tables.ofScope tables.syncRows scope =
      (state.rows.mapValues StoredRow.ofRow).toList := by
    rw [← h.rows]
    rfl
  rw [hentries, OrderedMap.toList_mapValues, OrderedMap.values, List.map_map]
  refine List.map_congr_left fun found hrow => ?_
  obtain ⟨key, row⟩ := found
  have hid : row.id = key := h.sound.keyed (OrderedMap.get?_eq_some_iff.2 hrow)
  rw [← hid]
  rfl

/-- The latest stored time is the mark. -/
theorem Records.eval_highWater {tables : Tables} (h : Records tables scope state) :
    (Statement.highWater scope).eval tables = (state.mark.toInt64, tables) := by
  have hle {row : Row} (hrow : row ∈ state.rows.values) : row.modifiedAt ≤ state.mark :=
    h.sound.le_mark (h.sound.mem_values_iff.1 hrow)
  rw [Statement.eval, h.ofScope_eq, List.map_map]
  rcases h.sound.reached with hzero | ⟨id, last, hget, htime⟩
  · -- No row has a timestamp that is not ahead of zero, so there is none.
    have hnone : state.rows.values = [] := by
      refine List.eq_nil_iff_forall_not_mem.2 fun row hrow => ?_
      have hpositive := h.sound.positive (h.sound.mem_values_iff.1 hrow)
      exact absurd (hzero ▸ hle hrow) (UInt64.not_le.2 hpositive)
    rw [hnone, hzero]
    rfl
  · -- The greatest stored time is that of the row written last.
    have hlast : last ∈ state.rows.values := OrderedMap.mem_values_iff.2 ⟨id, hget⟩
    have htop : (state.rows.values.map ((·.2.modifiedAt) ∘ entry)).max? =
        some state.mark.toInt64 := by
      refine List.max?_eq_some_iff.2 ⟨List.mem_map.2 ⟨last, hlast, ?_⟩, fun time htime => ?_⟩
      · exact congrArg UInt64.toInt64 htime
      · obtain ⟨row, hrow, rfl⟩ := List.mem_map.1 htime
        have hrange : row.modifiedAt ≤ maxTimestamp :=
          UInt64.le_trans (hle hrow) h.sound.mark_le
        exact (toInt64_le_iff hrange h.sound.mark_le).2 (hle hrow)
    rw [htop]
    rfl

/-- The changes after a time in range are listed as those of the state. -/
theorem Records.eval_changesAfter {tables : Tables} (h : Records tables scope state)
    (htime : time ≤ maxTimestamp) : (Statement.changesAfter scope time.toInt64).eval tables =
      ((state.changesAfter time).map entry, tables) := by
  have hrange {row : Row} (hrow : row ∈ state.rows.values) : row.modifiedAt ≤ maxTimestamp :=
    UInt64.le_trans (h.sound.le_mark (h.sound.mem_values_iff.1 hrow)) h.sound.mark_le
  -- The rows after the time, put in the order of their stored times.
  let sorted := (state.rows.values.filter fun row => time < row.modifiedAt).mergeSort
    fun a b => a.modifiedAt.toInt64 ≤ b.modifiedAt.toInt64
  have hmem (row : Row) : row ∈ sorted ↔ row ∈ state.rows.values ∧ time < row.modifiedAt := by
    simp only [sorted, List.mem_mergeSort, List.mem_filter, decide_eq_true_eq]
  have hsorted : sorted = state.changesAfter time := by
    -- Stored times keep the order of timestamps, and those in a scope are all different.
    refine h.sound.eq_changesAfter ?_ fun row => by rw [hmem, h.sound.mem_values_iff]
    have htrans (a b c : Row) (hab : decide (a.modifiedAt.toInt64 ≤ b.modifiedAt.toInt64))
        (hbc : decide (b.modifiedAt.toInt64 ≤ c.modifiedAt.toInt64)) :
        decide (a.modifiedAt.toInt64 ≤ c.modifiedAt.toInt64) := by
      rw [decide_eq_true_eq] at hab hbc ⊢
      exact Int64.le_trans hab hbc
    have htotal (a b : Row) : decide (a.modifiedAt.toInt64 ≤ b.modifiedAt.toInt64) ||
        decide (b.modifiedAt.toInt64 ≤ a.modifiedAt.toInt64) := by
      rw [Bool.or_eq_true, decide_eq_true_eq, decide_eq_true_eq]
      exact Int64.le_total _ _
    have hordered := List.pairwise_mergeSort htrans htotal
      (state.rows.values.filter fun row => time < row.modifiedAt)
    have hdistinct : sorted.Pairwise fun a b => a.modifiedAt ≠ b.modifiedAt :=
      (List.mergeSort_perm _ _).symm.pairwise (h.sound.pairwise_values.filter _) Ne.symm
    refine (List.Pairwise.and hordered hdistinct).imp_of_mem fun {a b} ha hb hab => ?_
    have hle := (toInt64_le_iff (hrange ((hmem a).1 ha).1) (hrange ((hmem b).1 hb).1)).1
      (of_decide_eq_true hab.1)
    exact UInt64.lt_of_le_of_ne hle hab.2
  -- The statement sorts columns where `sorted` sorts rows; telling the columns commutes with it.
  have hfilter : state.rows.values.filter
      ((fun row : RowId × StoredRow => decide (time.toInt64 < row.2.modifiedAt)) ∘ entry) =
        state.rows.values.filter fun row => time < row.modifiedAt := by
    refine List.filter_congr fun row hrow => ?_
    rw [decide_eq_decide.2 (toInt64_lt_iff htime (hrange hrow)).symm]
    rfl
  have hmerge : sorted.map entry =
      ((state.rows.values.filter fun row => time < row.modifiedAt).map entry).mergeSort
        (·.2.modifiedAt ≤ ·.2.modifiedAt) :=
    List.map_mergeSort fun a _ b _ => rfl
  rw [Statement.eval, h.ofScope_eq, List.filter_map, hfilter, ← hmerge, hsorted]

/-- The columns of a scope are those of the rows of the state that the database holds. -/
theorem Holds.ofScope_eq (h : db.Holds scope state) :
    Tables.ofScope db.tables.syncRows scope = state.rows.values.map entry :=
  h.records.ofScope_eq

/-- The rows of the state are in range, and their payloads are kept. -/
theorem Holds.of_mem_values (h : db.Holds scope state) (hrow : row ∈ state.rows.values) :
    row.modifiedAt ≤ maxTimestamp ∧ row.payload.IsKept := by
  have hget : state.get? row.id = some row := h.sound.mem_values_iff.1 hrow
  exact ⟨UInt64.le_trans (h.sound.le_mark hget) h.sound.mark_le, (h.kept hget).payload⟩

/-- A statement that lists columns of rows of the state reads these rows. -/
theorem Holds.read_eq (h : db.Holds scope state) {statement : Statement (List (RowId × StoredRow))}
    (hnul : statement.hasNul = false)
    (heval : statement.eval db.tables = (rows.map entry, db.tables))
    (hrows : ∀ row ∈ rows, row ∈ state.rows.values) :
    (run statement >>= readRows) db = (.ok rows, db) := by
  have hrun : run statement db = (.ok (rows.map entry), db) := by
    rw [run_eq h.healthy hnul, heval]
  rw [bind_of_ok hrun]
  exact readRows_map_entry (fun row hrow => h.of_mem_values (hrows row hrow)) db

/-! ## Reading sessions -/

section Reads

/-- A statement that names a scope has no U+0000 just if the scope is kept. -/
theorem hasNul_ofScope {α : Type} {statement : Statement α}
    (htexts : statement.texts = [scope.table, scope.user]) (hpayload : statement.payload? = none) :
    statement.hasNul = false ↔ scope.IsKept := by
  rw [hasNul_eq_false_iff, htexts, hpayload, Scope.isKept_iff]
  simp

/-- A scope can be locked just if it is kept. -/
theorem hasNul_lock {mode : LockMode} :
    (Statement.lock mode scope).hasNul = false ↔ scope.IsKept := by
  rw [hasNul_eq_false_iff, Scope.isKept_iff]
  simp [Statement.texts, Statement.payload?, NulFree, Scope.name, String.toList_append]

/-- A row can be asked for just if its scope is kept and its id has no U+0000. -/
theorem hasNul_row : (Statement.row scope id).hasNul = false ↔ scope.IsKept ∧ NulFree id := by
  rw [hasNul_eq_false_iff, Scope.isKept_iff]
  simp [Statement.texts, Statement.payload?, and_assoc]

/-- A row can be written just if its scope is kept and neither its id nor its payload has U+0000. -/
theorem hasNul_writeRow : (Statement.writeRow scope row).hasNul = false ↔
    scope.IsKept ∧ NulFree row.id ∧ jsonHasNul row.payload.toJson = false := by
  rw [hasNul_eq_false_iff, Scope.isKept_iff]
  simp [Statement.texts, Statement.payload?, and_assoc]

/-- The latest time is the mark of the state that is recorded. -/
theorem Records.highWater_eq (h : Records db.tables scope state) (hhealthy : db.Healthy)
    (hscope : scope.IsKept) : highWater scope db = (.ok state.mark, db) := by
  have hnul : (Statement.highWater scope).hasNul = false :=
    (hasNul_ofScope rfl rfl).2 hscope
  have hrun : run (.highWater scope) db = (.ok state.mark.toInt64, db) := by
    rw [run_eq hhealthy hnul, h.eval_highWater]
  rw [highWater, bind_of_ok hrun, timestamp_toInt64 h.sound.mark_le]
  rfl

/-- The changes after a time in range are told as those of the state that is recorded just if the
text of each of their payloads reads back. -/
theorem Records.changesSince_eq_iff (h : Records db.tables scope state) (hhealthy : db.Healthy)
    (hscope : scope.IsKept) (htime : time ≤ maxTimestamp) :
    changesSince scope time db = (.ok (.ofChanges time (state.changesAfter time)), db) ↔
      ∀ row ∈ state.changesAfter time,
        readPayload? (payloadText row.payload) = some row.payload := by
  have hnul : (Statement.changesAfter scope time.toInt64).hasNul = false :=
    (hasNul_ofScope rfl rfl).2 hscope
  have hrun : run (.changesAfter scope time.toInt64) db =
      (.ok ((state.changesAfter time).map entry), db) := by
    rw [run_eq hhealthy hnul, h.eval_changesAfter htime]
  have hrange : ∀ row ∈ state.changesAfter time, row.modifiedAt ≤ maxTimestamp := fun row hrow =>
    UInt64.le_trans (h.sound.le_mark (h.sound.mem_changesAfter_iff.1 hrow).1) h.sound.mark_le
  rw [← readRows_map_entry_iff hrange db, changesSince, changesAfter, bind_assoc, bind_of_ok hrun]
  -- The report tells the rows that were read.
  constructor
  · intro htold
    obtain ⟨rows, between, hrows, htold⟩ := bind_eq_ok htold
    have hbetween : between = db := congrArg Prod.snd htold
    have hchanges : rows = state.changesAfter time :=
      congrArg SyncReport.changes (Except.ok.inj (congrArg Prod.fst htold))
    rw [hrows, hbetween, hchanges]
  · intro hrows
    rw [bind_of_ok hrows]
    rfl

variable (h : db.Holds scope state) (hscope : scope.IsKept)

include h hscope

/-- The live rows are those of the state. -/
theorem Holds.liveRows_eq : liveRows scope db = (.ok state.liveRows, db) := by
  have hnul : (Statement.liveRows scope).hasNul = false :=
    (hasNul_ofScope rfl rfl).2 hscope
  refine h.read_eq hnul ?_ fun row hrow => List.mem_of_mem_filter hrow
  rw [Statement.eval, h.ofScope_eq, List.filter_map]
  rfl

/-- The ids of the live rows are those of the state. -/
theorem Holds.liveIds_eq :
    run (.liveIds scope) db = (.ok (state.liveRows.map Row.id), db) := by
  have hnul : (Statement.liveIds scope).hasNul = false :=
    (hasNul_ofScope rfl rfl).2 hscope
  rw [run_eq h.healthy hnul, Statement.eval, h.ofScope_eq, List.filter_map, List.map_map]
  rfl

/-- The changes after a time in range are those of the state. -/
theorem Holds.changesAfter_eq (htime : time ≤ maxTimestamp) :
    changesAfter scope time db = (.ok (state.changesAfter time), db) := by
  have hnul : (Statement.changesAfter scope time.toInt64).hasNul = false :=
    (hasNul_ofScope rfl rfl).2 hscope
  refine h.read_eq hnul (h.records.eval_changesAfter htime) fun row hrow => ?_
  exact h.sound.mem_values_iff.2 (h.sound.mem_changesAfter_iff.1 hrow).1

/-- The row with an id is that of the state. -/
theorem Holds.getRow?_eq (hid : NulFree id) : getRow? scope id db = (.ok (state.get? id), db) := by
  have hnul : (Statement.row scope id).hasNul = false :=
    hasNul_row.2 ⟨hscope, hid⟩
  -- The statement selects by id, so at most one row is read.
  have hrun : run (.row scope id) db =
      (.ok ((state.rows.values.filter fun row => row.id == id).map entry), db) := by
    rw [run_eq h.healthy hnul, Statement.eval, h.ofScope_eq, List.filter_map]
    rfl
  have hread : readRows ((state.rows.values.filter fun row => row.id == id).map entry) db = _ :=
    readRows_map_entry (fun row hrow => h.of_mem_values (List.mem_of_mem_filter hrow)) db
  rw [getRow?, bind_of_ok hrun, bind_of_ok hread, ← h.sound.head?_filter_id]
  rfl

/-- The latest time is the mark. -/
theorem Holds.highWater_eq : highWater scope db = (.ok state.mark, db) :=
  h.records.highWater_eq h.healthy hscope

end Reads

end RowSync.Database
