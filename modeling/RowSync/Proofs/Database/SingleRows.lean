import RowSync.Proofs.Database.History
import RowSync.Proofs.Database.LocalRows

/-!
# Single Rows of a Database

What a database tells of a row that was written to it, from the write to the deletion and beyond.
Columns are read as rows just if the payload of each can be read (`readRows_eq_ok_iff`), so that the
row is told as it was written just if its own payload reads back (`getLive_eq_ok_iff`), and the
changes of its scope are told just if all payloads can be read (`changesSince_lists_iff`). A row of
a local table can be removed whether or not its payload reads back.
-/

namespace RowSync.Database

variable {db db' : Database} {scope : Scope} {state : ScopeState} {now time : Timestamp}
  {id : RowId} {payload : Payload} {row : Row}

/-- A session tells a result as a reply just if it has this result. -/
theorem bind_pure_eq_ok_iff {α β : Type} {session : Session α} {reply : α → β}
    (hinj : Function.Injective reply) {value : α} :
    (session >>= fun told => pure (reply told)) db = (.ok (reply value), db') ↔
      session db = (.ok value, db') := by
  constructor
  · intro h
    obtain ⟨told, between, hsession, h⟩ := bind_eq_ok h
    obtain ⟨hreply, hbetween⟩ := Prod.mk.inj h
    rw [hsession, hinj (Except.ok.inj hreply), hbetween]
  · intro h
    rw [bind_of_ok h]
    rfl

/-! ## Columns -/

/-- Columns are read just if each of them keeps a row that can be read. -/
theorem readRows_eq_ok_iff {entries : List (RowId × StoredRow)} {rows : List Row} :
    readRows entries db = (.ok rows, db') ↔
      db' = db ∧ entries.map (fun entry => entry.2.toRow? entry.1) = rows.map some := by
  induction entries generalizing rows with
  | nil =>
    cases rows with
    | nil => exact ⟨fun h => ⟨(congrArg Prod.snd h).symm, rfl⟩, fun h => by rw [h.1]; rfl⟩
    | cons row rest => exact iff_of_false (fun h => by cases h) (fun h => by cases h.2)
  | cons entry rest ih =>
    obtain ⟨id, stored⟩ := entry
    rw [readRows, List.map_cons]
    cases hread : stored.toRow? id with
    | none =>
      refine iff_of_false (fun h => by cases h) fun h => ?_
      cases rows with
      | nil => cases h.2
      | cons row others => cases (List.cons.inj h.2).1
    | some found =>
      dsimp only
      constructor
      · intro h
        obtain ⟨others, between, hothers, h⟩ := bind_eq_ok h
        cases h
        obtain ⟨rfl, hmap⟩ := ih.1 hothers
        exact ⟨rfl, by rw [hmap, List.map_cons]⟩
      · rintro ⟨rfl, hmap⟩
        cases rows with
        | nil => cases hmap
        | cons row others =>
          obtain ⟨hfirst, hothers⟩ := List.cons.inj hmap
          cases hfirst
          rw [bind_of_ok (ih.2 ⟨rfl, hothers⟩)]
          rfl

theorem id_of_toRow? {stored : StoredRow} (h : stored.toRow? id = some row) : row.id = id := by
  obtain ⟨_, -, rfl⟩ := Option.map_eq_some_iff.1 h
  rfl

/-- The row as it is read from its columns. -/
def asRead (row : Row) : Option Row := (StoredRow.ofRow row).toRow? row.id

theorem isSome_asRead (row : Row) :
    (asRead row).isSome = (readPayload? (payloadText row.payload)).isSome := Option.isSome_map

/-- All of some entries have values just if there are values that they have. -/
theorem exists_map_eq_map_some_iff {α β : Type} {f : α → Option β} {entries : List α} :
    (∃ values : List β, entries.map f = values.map some) ↔
      ∀ entry ∈ entries, (f entry).isSome := by
  constructor
  · rintro ⟨values, hmap⟩ entry hentry
    have hmem : f entry ∈ values.map some := hmap ▸ List.mem_map_of_mem hentry
    obtain ⟨value, -, hvalue⟩ := List.mem_map.1 hmem
    rw [← hvalue, Option.isSome_some]
  · intro hall
    induction entries with
    | nil => exact ⟨[], rfl⟩
    | cons entry rest ih =>
      obtain ⟨hfirst, hrest⟩ := List.forall_mem_cons.1 hall
      obtain ⟨value, hvalue⟩ := Option.isSome_iff_exists.1 hfirst
      obtain ⟨values, hvalues⟩ := ih hrest
      exact ⟨value :: values, by rw [List.map_cons, List.map_cons, hvalue, hvalues]⟩

/-- The row that is told, given the columns that are stored under its id. -/
def rowOf (id : RowId) : Option StoredRow → Except CallError (Option Row)
  | some stored =>
    match stored.toRow? id with
    | some row => .ok (some row)
    | none => .error .database
  | none => .ok none

/-- The row with an id is read from the columns that are stored under it. -/
theorem getRow?_eq (h : db.Healthy) (hscope : scope.IsKept) (hid : NulFree id) :
    getRow? scope id db = (rowOf id (db.tables.syncRows.get? (.ofScope scope id)), db) := by
  have hrun : run (.row scope id) db =
      (.ok ((db.tables.syncRows.get? (.ofScope scope id)).map fun stored => (id, stored)).toList,
        db) := by
    rw [run_eq h (hasNul_row.2 ⟨hscope, hid⟩), ← get?_scopeRows, ← OrderedMap.filter_toList_eq]
    rfl
  rw [getRow?, bind_of_ok hrun]
  cases db.tables.syncRows.get? (.ofScope scope id) with
  | none => rfl
  | some stored =>
    rw [rowOf, Option.map_some, Option.toList_some, readRows]
    cases stored.toRow? id <;> rfl

/-- The row that was found under an id is read from columns that are stored under it. -/
theorem exists_toRow?_of_getRow? (h : getRow? scope id db = (.ok (some row), db')) :
    ∃ stored, db.tables.syncRows.get? (.ofScope scope id) = some stored ∧
      stored.toRow? id = some row := by
  obtain ⟨entries, middle, hrun, h⟩ := bind_eq_ok h
  obtain ⟨rows, between, hread, h⟩ := bind_eq_ok h
  obtain ⟨-, hmap⟩ := readRows_eq_ok_iff.1 hread
  have hentries : entries =
      ((db.tables.syncRows.get? (.ofScope scope id)).map fun stored => (id, stored)).toList := by
    rw [← get?_scopeRows, ← OrderedMap.filter_toList_eq]
    exact (congrArg Prod.fst (run_eq_ok hrun)).symm
  -- The row is one of those that were read, and the statement selects by id.
  have hrow : some row ∈ rows.map some :=
    List.mem_map_of_mem (List.mem_of_mem_head? (Except.ok.inj (congrArg Prod.fst h)))
  rw [← hmap, hentries] at hrow
  obtain ⟨entry, hentry, hread⟩ := List.mem_map.1 hrow
  obtain ⟨stored, hstored, rfl⟩ := Option.map_eq_some_iff.1 (Option.mem_toList.1 hentry)
  exact ⟨stored, hstored, hread⟩

/-- The row that was found under an id has the id. -/
theorem id_of_getRow? (h : getRow? scope id db = (.ok (some row), db')) : row.id = id := by
  obtain ⟨stored, -, hread⟩ := exists_toRow?_of_getRow? h
  exact id_of_toRow? hread

/-- The columns of a row of the state are stored under its id. -/
theorem Records.get?_eq {tables : Tables} (h : Records tables scope state) (id : RowId) :
    tables.syncRows.get? (.ofScope scope id) = (state.get? id).map StoredRow.ofRow := by
  rw [← get?_scopeRows, h.rows, OrderedMap.get?_mapValues]
  rfl

/-- A row of the state is told as it is if the text of its payload reads back. -/
theorem Records.getRow?_eq (h : Records db.tables scope state) (hhealthy : db.Healthy)
    (hscope : scope.IsKept) (hid : NulFree row.id) (hget : state.get? row.id = some row)
    (hreads : readPayload? (payloadText row.payload) = some row.payload) :
    getRow? scope row.id db = (.ok (some row), db) := by
  have hrange : row.modifiedAt ≤ maxTimestamp :=
    UInt64.le_trans (h.sound.le_mark hget) h.sound.mark_le
  rw [Database.getRow?_eq hhealthy hscope hid, h.get?_eq, hget, Option.map_some, rowOf,
    (toRow?_ofRow_iff hrange).2 hreads]

/-- The changes after a time are read from the columns of the changes of the state. -/
theorem Records.changesAfter_eq_ok_iff (h : Records db.tables scope state) (hhealthy : db.Healthy)
    (hscope : scope.IsKept) (htime : time ≤ maxTimestamp) {rows : List Row} :
    changesAfter scope time db = (.ok rows, db') ↔
      db' = db ∧ (state.changesAfter time).map asRead = rows.map some := by
  have hnul : (Statement.changesAfter scope time.toInt64).hasNul = false :=
    (hasNul_ofScope rfl rfl).2 hscope
  have hrun : run (.changesAfter scope time.toInt64) db =
      (.ok ((state.changesAfter time).map entry), db) := by
    rw [run_eq hhealthy hnul, h.eval_changesAfter htime]
  rw [changesAfter, bind_of_ok hrun, readRows_eq_ok_iff, List.map_map]
  rfl

/-! ## Reads of sync tables -/

section Reads

variable (h : Records db.tables scope state) (hhealthy : db.Healthy) (hscope : scope.IsKept)
  (hget : state.get? row.id = some row)

include h hhealthy hscope hget

/-- A live row is told as it was written just if the text of its payload reads back. -/
theorem getLive_eq_ok_iff (hid : NulFree row.id) (hvalid : checkRowId row.id = .ok ())
    (hlive : row.deleted = false) :
    getLive scope row.id db = (.ok row, db) ↔
      readPayload? (payloadText row.payload) = some row.payload := by
  have hisLive : row.isLive = true := by rw [Row.isLive, hlive, Bool.not_false]
  have hrange : row.modifiedAt ≤ maxTimestamp :=
    UInt64.le_trans (h.sound.le_mark hget) h.sound.mark_le
  rw [getLive, hvalid]
  show (getRow? scope row.id >>= _) db = _ ↔ _
  constructor
  · intro htold
    obtain ⟨found, between, hfound, htold⟩ := bind_eq_ok htold
    rw [Database.getRow?_eq hhealthy hscope hid, h.get?_eq, hget, Option.map_some, rowOf] at hfound
    -- What was read is the row that was told, and so it is what the columns keep.
    cases hread : (StoredRow.ofRow row).toRow? row.id with
    | none =>
      rw [hread] at hfound
      cases hfound
    | some read =>
      rw [hread] at hfound
      cases hfound
      by_cases hreadLive : read.isLive = true
      · simp only [Option.filter_some, if_pos hreadLive] at htold
        cases htold
        exact (toRow?_ofRow_iff hrange).1 hread
      · simp only [Option.filter_some, if_neg hreadLive] at htold
        cases htold
  · intro hreads
    rw [bind_of_ok (h.getRow?_eq hhealthy hscope hid hget hreads), Option.filter_some,
      if_pos hisLive]
    rfl

/-- A tombstone whose payload reads back counts as no row. -/
theorem getLive_eq_error (hid : NulFree row.id) (hvalid : checkRowId row.id = .ok ())
    (hdeleted : row.deleted = true)
    (hreads : readPayload? (payloadText row.payload) = some row.payload) :
    getLive scope row.id db = (.error (.refused (.rowNotFound row.id)), db) := by
  have hisLive : ¬row.isLive = true := by simp [Row.isLive, hdeleted]
  rw [getLive, hvalid]
  show (getRow? scope row.id >>= _) db = _
  rw [bind_of_ok (h.getRow?_eq hhealthy hscope hid hget hreads), Option.filter_some,
    if_neg hisLive]
  rfl

/-- A row that was changed after a time is among the changes that are told just if its payload reads
back and those of all other changes can be read. -/
theorem changesSince_lists_iff (htime : time ≤ maxTimestamp) (hlt : time < row.modifiedAt) :
    (∃ report, changesSince scope time db = (.ok report, db) ∧ row ∈ report.changes) ↔
      readPayload? (payloadText row.payload) = some row.payload ∧
        ∀ other ∈ state.changesAfter time,
          (readPayload? (payloadText other.payload)).isSome := by
  have hrange : row.modifiedAt ≤ maxTimestamp :=
    UInt64.le_trans (h.sound.le_mark hget) h.sound.mark_le
  have htold : (∃ report, changesSince scope time db = (.ok report, db) ∧ row ∈ report.changes) ↔
      ∃ rows : List Row, (state.changesAfter time).map asRead = rows.map some ∧ row ∈ rows := by
    constructor
    · rintro ⟨report, hreport, hmem⟩
      obtain ⟨rows, between, hrows, hreport⟩ := bind_eq_ok hreport
      cases hreport
      exact ⟨rows, ((h.changesAfter_eq_ok_iff hhealthy hscope htime).1 hrows).2, hmem⟩
    · rintro ⟨rows, hmap, hmem⟩
      have hrows := (h.changesAfter_eq_ok_iff hhealthy hscope htime).2 ⟨rfl, hmap⟩
      exact ⟨_, bind_of_ok hrows, hmem⟩
  -- What reads as the row are the columns of a row with its id, which is the row itself.
  have hlisted : some row ∈ (state.changesAfter time).map asRead ↔ asRead row = some row := by
    constructor
    · intro hmem
      obtain ⟨other, hother, hread⟩ := List.mem_map.1 hmem
      have hsame := (h.sound.mem_changesAfter_iff.1 hother).1
      rw [← id_of_toRow? hread, hget] at hsame
      cases hsame
      exact hread
    · intro hread
      exact List.mem_map.2 ⟨row, h.sound.mem_changesAfter_iff.2 ⟨hget, hlt⟩, hread⟩
  rw [htold, ← toRow?_ofRow_iff hrange]
  constructor
  · rintro ⟨rows, hmap, hmem⟩
    refine ⟨hlisted.1 (hmap ▸ List.mem_map_of_mem hmem), fun other hother => ?_⟩
    rw [← isSome_asRead]
    exact exists_map_eq_map_some_iff.1 ⟨rows, hmap⟩ other hother
  · rintro ⟨hread, hall⟩
    obtain ⟨rows, hmap⟩ := exists_map_eq_map_some_iff.2 fun other hother =>
      (isSome_asRead other).trans (hall other hother)
    have hmem : some row ∈ rows.map some := hmap ▸ hlisted.2 hread
    exact ⟨rows, hmap, (List.mem_map_of_injective (Option.some_injective _)).1 hmem⟩

end Reads

/-! ## Writes to sync tables -/

/-- A payload that was written makes a live row with it, and could be bound. -/
theorem upsert_eq_ok {writer writer' : Writer} {claim : Option Timestamp}
    (h : writer.upsert id payload claim db = (.ok (row, writer'), db')) :
    (∃ time, row = .create id payload time) ∧
      (Statement.writeRow writer.scope row).hasNul = false := by
  obtain ⟨⟨time, ticked⟩, between, hticked, hrest⟩ := bind_eq_ok h
  obtain ⟨clock, -, rfl, rfl⟩ := tick_eq_ok hticked
  obtain ⟨found, middle, hfound, hstore⟩ := bind_eq_ok hrest
  have hstored {written : Row} (hstore : Writer.store ⟨writer.scope, clock, writer.now⟩ written
      middle = (.ok (row, writer'), db')) :
      row = written ∧ (Statement.writeRow writer.scope written).hasNul = false := by
    obtain ⟨_, _, hrun, -⟩ := bind_eq_ok hstore
    exact ⟨(store_eq_ok hstore).1, hasNul_of_run_eq_ok hrun⟩
  cases found with
  | none =>
    obtain ⟨rfl, hnul⟩ := hstored hstore
    exact ⟨⟨time, rfl⟩, hnul⟩
  | some before =>
    obtain ⟨rfl, hnul⟩ := hstored hstore
    -- The row that was there before has the id.
    obtain rfl := id_of_getRow? hfound
    exact ⟨⟨time, rfl⟩, hnul⟩

/-- A row that was put is live, could be bound, and is the last that was written to its scope. -/
theorem Records.put_eq_ok (h : Records db.tables scope state)
    (hput : put scope now id payload db = (.ok row, db')) :
    (∃ time, row = .create id payload time) ∧ checkRowId id = .ok () ∧
      (Statement.writeRow scope row).hasNul = false ∧ Records db'.tables scope (state.put row) := by
  obtain ⟨_, checked, hcheck, hrest⟩ := bind_eq_ok hput
  obtain ⟨hvalid, rfl⟩ := check_eq_ok hcheck
  rcases h.writing_cases now (fun writer =>
      writer.upsert id payload none >>= fun told => pure told.1) with
    ⟨e, after, hrun, -⟩ | ⟨value, started, ended, after, hrun, hstarted, hbody, hended, -⟩
  · cases hrun.symm.trans hrest
  · cases hrun.symm.trans hrest
    obtain ⟨⟨written, writer⟩, between, hupsert, hbody⟩ := bind_eq_ok hbody
    cases hbody
    obtain ⟨hcreated, hnul⟩ := upsert_eq_ok hupsert
    have hbefore : Records started.tables scope state := hstarted.symm ▸ h
    have hwrite : (Operation.upsert id payload none).write scope (.ofState scope now state) started =
        (.ok (written, writer), ended) := hupsert
    have hwrote := hbefore.wrote_operation hwrite
    exact ⟨hcreated, hvalid, hnul, hended.symm ▸ hwrote.records⟩

/-- The database after a row was written. -/
def withRow (db : Database) (scope : Scope) (row : Row) : Database :=
  { db with tables := ((Statement.writeRow scope row).eval db.tables).2 }

/-- A row whose payload reads back is turned into a tombstone at the next timestamp, if there is
one. -/
theorem Records.delete_eq (h : Records db.tables scope state) (hhealthy : db.Healthy)
    (hnul : (Statement.writeRow scope row).hasNul = false) (hvalid : checkRowId row.id = .ok ())
    (hget : state.get? row.id = some row)
    (hreads : readPayload? (payloadText row.payload) = some row.payload) :
    delete scope now row.id db =
      match state.nextTime now with
      | .ok time => (.ok (row.entomb time), db.withRow scope (row.entomb time))
      | .error e => (.error (.refused e), db) := by
  obtain ⟨hscope, hid, -⟩ := hasNul_writeRow.1 hnul
  have hstart := h.start_eq hhealthy hscope now
  have hfound := h.getRow?_eq hhealthy hscope hid hget hreads
  rw [delete, hvalid]
  show writing scope now _ db = _
  cases htime : state.nextTime now with
  | error e =>
    have htick : HybridClock.tick ⟨state.mark⟩ now = .error e := map_eq_error_iff.1 htime
    have hfails : (Writer.ofState scope now state).delete row.id none db =
        (.error (.refused e), db) := by
      show (getRow? scope row.id >>= _) db = _
      rw [bind_of_ok hfound]
      exact bind_of_error (tick_of_error htick db)
    refine transaction_of_error hhealthy ?_
    rw [bind_of_ok hstart]
    exact bind_of_error hfails
  | ok time =>
    obtain ⟨⟨assigned, clock⟩, htick, rfl⟩ := map_eq_ok_iff.1 htime
    -- The tombstone binds what the row bound.
    have hnul' : (Statement.writeRow scope (row.entomb assigned)).hasNul = false := hnul
    have hticked : (Writer.ofState scope now state).tick none db =
        (.ok (assigned, ⟨scope, clock, now⟩), db) := tick_of_ok htick db
    have hstored : Writer.store ⟨scope, clock, now⟩ (row.entomb assigned) db =
        (.ok (row.entomb assigned, ⟨scope, clock, now⟩),
          db.withRow scope (row.entomb assigned)) := by
      rw [Writer.store, bind_of_ok (run_eq hhealthy hnul')]
      rfl
    have hdeleted : (Writer.ofState scope now state).delete row.id none db =
        (.ok (row.entomb assigned, ⟨scope, clock, now⟩),
          db.withRow scope (row.entomb assigned)) := by
      show (getRow? scope row.id >>= _) db = _
      rw [bind_of_ok hfound]
      show (Writer.tick _ none >>= _) db = _
      rw [bind_of_ok hticked]
      exact hstored
    refine transaction_of_ok hhealthy ⟨hhealthy.isReachable, hhealthy.noFault⟩ ?_
    rw [bind_of_ok hstart]
    exact bind_of_ok hdeleted

/-- A row is turned into a tombstone with its own payload only if this reads back. -/
theorem Records.reads_of_delete (h : Records db.tables scope state)
    (hget : state.get? row.id = some row)
    (hdelete : delete scope now row.id db = (.ok (row.entomb time), db')) :
    readPayload? (payloadText row.payload) = some row.payload := by
  obtain ⟨_, checked, hcheck, hrest⟩ := bind_eq_ok hdelete
  obtain ⟨-, rfl⟩ := check_eq_ok hcheck
  rcases h.writing_cases now (fun writer => do return (← writer.delete row.id none).1) with
    ⟨e, after, hrun, -⟩ | ⟨value, started, ended, after, hrun, hstarted, hbody, -, -⟩
  · cases hrun.symm.trans hrest
  · cases hrun.symm.trans hrest
    obtain ⟨⟨written, writer⟩, between, hwritten, hbody⟩ := bind_eq_ok hbody
    have htombstone : row.entomb time = written :=
      (Except.ok.inj (congrArg Prod.fst hbody)).symm
    obtain ⟨found, middle, hfound, hstore⟩ := bind_eq_ok hwritten
    cases found with
    | none => cases hstore
    | some found =>
      -- What was found is what the columns of the row read as.
      obtain ⟨⟨assigned, ticked⟩, _, -, hstore⟩ := bind_eq_ok hstore
      obtain ⟨rfl, -, -⟩ := store_eq_ok hstore
      obtain ⟨stored, hstored, hread⟩ := exists_toRow?_of_getRow? hfound
      have hcolumns : stored = StoredRow.ofRow row := by
        have hkept := (hstarted.symm ▸ h : Records started.tables scope state).get?_eq row.id
        rw [hget] at hkept
        exact Option.some.inj (hstored.symm.trans hkept)
      obtain ⟨payload, hpayload, rfl⟩ := Option.map_eq_some_iff.1 hread
      have hsame : row.payload = payload := congrArg Row.payload htombstone
      rw [hcolumns] at hpayload
      rwa [← hsame] at hpayload

/-! ## Local tables -/

section Local

variable {given told : FlatRow}

/-- A local row that was put is told as it was given, could be bound, and is stored. -/
theorem putLocal_eq_ok (hput : putLocal scope given db = (.ok told, db')) :
    told = given ∧ checkRowId given.id = .ok () ∧
      (Statement.writeLocalRow scope given).hasNul = false ∧
      db'.tables = (db.withLocalRow scope given).tables := by
  obtain ⟨_, checked, hcheck, hrest⟩ := bind_eq_ok hput
  obtain ⟨hvalid, rfl⟩ := check_eq_ok hcheck
  obtain ⟨_, between, hrun, hrest⟩ := bind_eq_ok hrest
  cases hrest
  exact ⟨rfl, hvalid, hasNul_of_run_eq_ok hrun, (congrArg Prod.snd (run_eq_ok hrun)).symm⟩

/-- A local row that is stored is told as it was given just if its text reads back. -/
theorem localRow_eq_ok_iff (h : db.Healthy) (hscope : scope.IsKept) (hid : NulFree given.id)
    (hvalid : checkRowId given.id = .ok ())
    (hget : db.tables.localRows.get? (.ofScope scope given.id) = some (payloadText given.fields)) :
    localRow scope given.id db = (.ok given, db) ↔
      readPayload? (payloadText given.fields) = some given.fields := by
  rw [localRow_eq h hscope hid hvalid, hget, localRowOf]
  cases readPayload? (payloadText given.fields) with
  | none => exact iff_of_false (fun h => by cases h) (fun h => by cases h)
  | some fields =>
    refine ⟨fun htold => ?_, fun hreads => by rw [Option.some.inj hreads]⟩
    have hsame : (⟨given.id, fields⟩ : FlatRow) = given := Except.ok.inj (congrArg Prod.fst htold)
    exact congrArg (some ·.fields) hsame

/-- The database after a local row was deleted. -/
def withoutLocalRow (db : Database) (scope : Scope) (id : RowId) : Database :=
  { db with tables := ((Statement.deleteLocalRow scope id).eval db.tables).2 }

theorem get?_withoutLocalRow (db : Database) (scope : Scope) (id : RowId) :
    (db.withoutLocalRow scope id).tables.localRows.get? (.ofScope scope id) = none := by
  rw [withoutLocalRow, Statement.eval, OrderedMap.get?_erase, if_pos rfl]

/-- Deleting a local row tells whether there was one, be its payload readable or not. -/
theorem deleteLocal_eq (h : db.Healthy) (hscope : scope.IsKept) (hid : NulFree id)
    (hvalid : checkRowId id = .ok ()) : deleteLocal scope id db =
      (if db.tables.localRows.contains (.ofScope scope id) then .ok ()
        else .error (.refused (.rowNotFound id)), db.withoutLocalRow scope id) := by
  have hrun := run_eq h (hasNul_deleteLocalRow.2 ⟨hscope, hid⟩)
  rw [deleteLocal, hvalid]
  show (run (.deleteLocalRow scope id) >>= _) db = _
  rw [bind_of_ok hrun, Statement.eval]
  cases db.tables.localRows.contains (.ofScope scope id) <;> rfl

end Local

end RowSync.Database
