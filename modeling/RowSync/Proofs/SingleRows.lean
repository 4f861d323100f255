import RowSync.Proofs.Database.SingleRows
import RowSync.Proofs.ValidNames

/-!
# Single Rows

What becomes of one row, over stores and over a database: it is put, told, turned into a tombstone
and told among the changes (`Backend.LastWrote`), and in a local table it is put, told and removed
(`Backend.StoresLocal`). Over stores the row is always told as it was put. Over a database it is
just if its payload reads back from the text that is stored (`Backend.ReadsBack`), while a local row
can be removed in any case.
-/

namespace RowSync

variable {store : Store} {scope : Scope} {limits : Limits} {now : Timestamp} {id : RowId}
  {payload : Payload} {given : FlatRow}

/-! ## Local tables in memory -/

/-- What was put back is found again. -/
theorem Store.get?_settle_self (store : Store) (scope : Scope) (table : Table) (id : RowId) :
    ((store.settle scope table).table scope).get? id = table.get? id := by
  rw [table_settle_self]
  split
  · rename_i hempty
    rw [Table.get?_empty, Table.get?, OrderedMap.isEmpty_iff.1 hempty]
    rfl
  · rfl

/-- A payload that is written in a transaction of its own makes a live row with it. -/
theorem Transaction.upsert_start_eq_ok {table : Table} {txn : Transaction} {row : Row}
    (h : table.Named) (hok : (start table now).upsert id payload none = .ok (row, txn)) :
    (∃ time, row = .create id payload time) ∧ txn.commit.get? id = some row := by
  obtain ⟨⟨time, ticked⟩, htick, hok⟩ := bind_eq_ok_iff.1 hok
  obtain ⟨⟨assigned, clock⟩, -, htick⟩ := bind_eq_ok_iff.1 htick
  cases htick
  -- Nothing else is staged, so that committing the transaction is committing the row.
  have hcommitted (written : Row) (hid : written.id = id) :
      ((⟨table, ∅, clock, now⟩ : Transaction).stage written).commit.get? id = some written := by
    show (table.commitRow written).get? id = some written
    rw [Table.get?_commitRow, if_pos hid.symm]
  cases hfound : table.get? id with
  | none =>
    have hget : (⟨table, ∅, clock, now⟩ : Transaction).get? id = none := hfound
    simp only [start, hget] at hok
    cases hok
    exact ⟨⟨time, rfl⟩, hcommitted _ rfl⟩
  | some before =>
    have hget : (⟨table, ∅, clock, now⟩ : Transaction).get? id = some before := hfound
    simp only [start, hget] at hok
    cases hok
    obtain rfl : before.id = id := (h id before hfound).1
    exact ⟨⟨time, rfl⟩, hcommitted _ rfl⟩

namespace LocalTables

variable {told : FlatRow} {after : Store}

/-- The local table of the scope has the row. -/
def Stores (store : Store) (scope : Scope) (given : FlatRow) : Prop :=
  ∃ row, (store.table scope).get? given.id = some row ∧ row.isLive = true ∧ row.flatten = given

/-- A row that was put is told as it was given, and the table has it. -/
theorem put_eq_ok (h : store.Named) (hfree : given.fields.IsIdFree)
    (hput : put store scope now given = (.ok told, after)) :
    told = given ∧ checkRowId given.id = .ok () ∧ Stores after scope given := by
  rw [put, Store.upsert] at hput
  cases hvalid : checkRowId given.id with
  | error e =>
    rw [hvalid] at hput
    cases hput
  | ok _ =>
    simp only [hvalid, Store.guarded, Store.transact] at hput
    cases hupsert : (Transaction.start (store.table scope) now).upsert given.id given.fields none with
    | error e =>
      rw [hupsert] at hput
      cases hput
    | ok written =>
      obtain ⟨row, txn⟩ := written
      rw [hupsert] at hput
      cases hput
      obtain ⟨⟨time, rfl⟩, hget⟩ := Transaction.upsert_start_eq_ok (h.table scope) hupsert
      have hflat : (Row.create given.id given.fields time).flatten = given :=
        congrArg (FlatRow.mk given.id) hfree.erase_eq
      exact ⟨hflat, rfl, _, (Store.get?_settle_self _ _ _ _).trans hget, rfl, hflat⟩

theorem Stores.row_eq (h : Stores store scope given) (hvalid : checkRowId given.id = .ok ()) :
    row store scope given.id = .ok given := by
  obtain ⟨found, hget, hlive, hflat⟩ := h
  have hfound : (store.table scope).getLive? given.id = some found := by
    rw [Table.getLive?, hget, Option.filter_some, if_pos hlive]
  rw [row, Store.get, hvalid]
  simp only [bind, Except.bind, hfound]
  exact congrArg Except.ok hflat

/-- A row that the table has is removed. -/
theorem Stores.delete_eq (h : Stores store scope given) (hvalid : checkRowId given.id = .ok ()) :
    (delete store scope given.id).1 = .ok () ∧
      ((delete store scope given.id).2.table scope).get? given.id = none := by
  obtain ⟨found, hget, -, -⟩ := h
  rw [delete, Store.remove, hvalid]
  simp only [Store.guarded, mapReply]
  cases htable : store.tables.get? scope with
  | none =>
    -- A scope that is not kept has no rows.
    rw [Store.table, htable] at hget
    cases hget
  | some table =>
    rw [Store.table, htable, Option.getD_some] at hget
    simp only [hget]
    refine ⟨rfl, ?_⟩
    rw [Store.get?_settle_self, Table.get?_remove, if_pos rfl]

theorem row_of_get?_eq_none (h : (store.table scope).get? id = none)
    (hvalid : checkRowId id = .ok ()) : row store scope id = .error (.rowNotFound id) := by
  have hnone : (store.table scope).getLive? id = none := by rw [Table.getLive?, h]; rfl
  rw [row, Store.get, hvalid]
  simp only [bind, Except.bind, hnone]
  rfl

theorem delete_of_get?_eq_none (h : (store.table scope).get? id = none)
    (hvalid : checkRowId id = .ok ()) :
    (delete store scope id).1 = .error (.rowNotFound id) := by
  rw [delete, Store.remove, hvalid]
  simp only [Store.guarded, mapReply]
  cases htable : store.tables.get? scope with
  | none => rfl
  | some table =>
    rw [Store.table, htable, Option.getD_some] at h
    simp only [h]
    rfl

end LocalTables

/-! ## The last row of a state -/

namespace ScopeState

variable {state : ScopeState} {row : Row}

theorem getLive_put_self (state : ScopeState) (hvalid : checkRowId row.id = .ok ()) :
    (state.put row).getLive row.id =
      if row.deleted then .error (.rowNotFound row.id) else .ok row := by
  rw [getLive, hvalid, get?_put, if_pos rfl, Option.filter_some, Row.isLive]
  cases row.deleted <;> rfl

theorem perform_delete_put_self (state : ScopeState) (hvalid : checkRowId row.id = .ok ()) :
    (state.put row).perform limits now (.delete row.id) =
      ((state.put row).nextTime now).map fun time =>
        (.row (row.entomb time), (state.put row).put (row.entomb time)) := by
  rw [perform, hvalid, delete, get?_put, if_pos rfl]
  cases (state.put row).nextTime now <;> rfl

end ScopeState

/-! ## Backends -/

namespace Backend

open Database

variable {backend after : Backend} {row : Row} {state : ScopeState}

/-- Statements reach the database, if there is one, and no fault is going to strike. -/
def IsHealthy (backend : Backend) : Prop := backend.isReachable = true ∧ backend.IsFaultless

/-- A call on a sync table leaves the backend as healthy as it was. -/
theorem IsHealthy.performSync (h : backend.IsHealthy) (limits : Limits) (scope : Scope)
    (now : Timestamp) (call : SyncCall) :
    (backend.performSync limits scope now call).2.IsHealthy := by
  -- Whether the backend can be reached is part of what is known of a table that is not touched.
  have hconfined := confined_performSync limits scope now call
  have hother : TableRef.onLocal scope ≠ .sync scope := nofun
  exact ⟨(congrArg Prod.fst (hconfined.others h.2 hother)).trans h.1, hconfined.sound h.2⟩

/-- A call on a local table leaves the backend as healthy as it was. -/
theorem IsHealthy.performLocal (h : backend.IsHealthy) (scope : Scope) (now : Timestamp)
    (call : LocalCall) : (backend.performLocal scope now call).2.IsHealthy := by
  have hconfined := confined_performLocal scope now call
  have hother : TableRef.sync scope ≠ .onLocal scope := nofun
  exact ⟨(congrArg Prod.fst (hconfined.others h.2 hother)).trans h.1, hconfined.sound h.2⟩

theorem IsHealthy.database {db : Database} (h : (Backend.database db).IsHealthy) : db.Healthy :=
  ⟨h.1, h.2⟩

theorem database_eq_iff {α : Type} {result : Except CallError α × Database}
    {outcome : Except CallError α} {db' : Database} :
    (result.1, database result.2) = (outcome, database db') ↔ result = (outcome, db') := by
  rw [Prod.mk.injEq, database.injEq, Prod.ext_iff]

theorem exists_of_database_eq {α : Type} {result : Except CallError α × Database}
    {outcome : Except CallError α} (h : (result.1, database result.2) = (outcome, after)) :
    ∃ db', after = database db' ∧ result = (outcome, db') := by
  obtain ⟨houtcome, rfl⟩ := Prod.mk.inj h
  exact ⟨_, rfl, Prod.ext houtcome rfl⟩

theorem performSync_database (limits : Limits) (db : Database) (scope : Scope) (now : Timestamp)
    (call : SyncCall) : (database db).performSync limits scope now call =
      ((Database.performSync limits scope now call db).1,
        database (Database.performSync limits scope now call db).2) := rfl

theorem performLocal_database (db : Database) (scope : Scope) (now : Timestamp)
    (call : LocalCall) : (database db).performLocal scope now call =
      ((Database.performLocal scope call db).1,
        database (Database.performLocal scope call db).2) := rfl

/-- The sync tables of all scopes have sound states. -/
def IsSound : Backend → Prop
  | memory syncStore _ => syncStore.Sound
  | database db => db.Sound

theorem IsSound.performSync (h : backend.IsSound) (limits : Limits) (scope : Scope)
    (now : Timestamp) (call : SyncCall) :
    (backend.performSync limits scope now call).2.IsSound := by
  cases backend with
  | memory syncStore localStore => exact (SyncTables.follows_perform h call).sound
  | database db => exact Database.Sound.performSync h limits scope now call

theorem IsSound.performLocal (h : backend.IsSound) (scope : Scope) (now : Timestamp)
    (call : LocalCall) : (backend.performLocal scope now call).2.IsSound := by
  cases backend with
  | memory syncStore localStore => exact h
  | database db =>
    intro other
    obtain ⟨state, hrecords⟩ := h other
    -- Local calls do not touch the rows of sync tables.
    have hrows := keeps_syncRows_performLocal scope call db
    exact ⟨state, hrecords.of_scopeRows_eq (congrArg (scopeRows · other) hrows)⟩

/-! ## Sync tables -/

/-- The backend keeps the state of a sync table, and can be asked for it. -/
def Keeps (scope : Scope) (state : ScopeState) : Backend → Prop
  | memory syncStore _ => syncStore.Sound ∧ syncStore.state scope = state
  | database db => db.Healthy ∧ Records db.tables scope state

/-- A call on a sync table in memory has the result of the call on the state that is kept, and leaves
the state after it. -/
theorem Keeps.performSync_memory {syncStore localStore : Store}
    (h : (memory syncStore localStore).Keeps scope state) (limits : Limits) (now : Timestamp)
    (call : SyncCall) :
    ((memory syncStore localStore).performSync limits scope now call).1 =
        ((state.perform limits now call).map Prod.fst).mapError .refused ∧
      ((memory syncStore localStore).performSync limits scope now call).2.Keeps scope
        (state.after limits now call) := by
  obtain ⟨hsound, rfl⟩ := h
  have hfollows : syncStore.Follows scope
      (SyncTables.perform limits syncStore scope now call) _ := SyncTables.follows_perform hsound call
  exact ⟨congrArg (Except.mapError CallError.refused) hfollows.result, hfollows.sound,
    hfollows.state⟩

/-- The row can be bound to a statement, if there are any. -/
def Binds (scope : Scope) (row : Row) : Backend → Prop
  | memory _ _ => True
  | database _ => (Statement.writeRow scope row).hasNul = false

/-- The payload reads back from the text in which it is stored, if it is stored as a text. -/
def ReadsBack (payload : Payload) : Backend → Prop
  | memory _ _ => True
  | database _ => readPayload? (payloadText payload) = some payload

instance (payload : Payload) (backend : Backend) : Decidable (backend.ReadsBack payload) :=
  match backend with
  | memory _ _ => .isTrue trivial
  | database _ => inferInstanceAs (Decidable (readPayload? (payloadText payload) = some payload))

/-- A call on a sync table leaves the backend of its kind. -/
theorem readsBack_performSync {call : SyncCall} :
    (backend.performSync limits scope now call).2.ReadsBack payload ↔
      backend.ReadsBack payload := by
  cases backend <;> rfl

/-- The payloads of all rows of the sync table can be read, tombstones included. -/
def IsReadable (scope : Scope) : Backend → Prop
  | memory _ _ => True
  | database db => ∀ id stored, db.tables.syncRows.get? (.ofScope scope id) = some stored →
    (readPayload? stored.payload).isSome

/-- The row is the last that was written to the sync table. -/
structure LastWrote (scope : Scope) (row : Row) (backend : Backend) : Prop where
  /-- The id is valid. -/
  valid : checkRowId row.id = .ok ()
  /-- The row could be bound. -/
  binds : backend.Binds scope row
  /-- The backend keeps the state after the row was put. -/
  keeps : ∃ state : ScopeState, backend.Keeps scope (state.put row)

/-- A payload that is put makes a live row, which is the last that was written. -/
theorem lastWrote_put (hsound : backend.IsSound) (hhealthy : backend.IsHealthy) {reply : SyncReply}
    (hput : backend.performSync limits scope now (.put id payload) = (.ok reply, after)) :
    ∃ time, reply = .row (.create id payload time) ∧
      after.LastWrote scope (.create id payload time) := by
  cases backend with
  | memory syncStore localStore =>
    have hkeeps : (memory syncStore localStore).Keeps scope (syncStore.state scope) := ⟨hsound, rfl⟩
    obtain ⟨hresult, hafter⟩ := hkeeps.performSync_memory limits now (.put id payload)
    have htold := hresult.symm.trans (congrArg Prod.fst hput)
    obtain ⟨⟨told, state⟩, hperform, rfl⟩ := map_eq_ok_iff.1 (mapError_eq_ok_iff.1 htold)
    obtain ⟨row, hrow, rfl⟩ := ScopeState.writing_eq_ok hperform
    obtain ⟨_, hvalid, hrow⟩ := bind_eq_ok_iff.1 hrow
    obtain ⟨time, -, rfl, rfl⟩ := ScopeState.upsert_eq_ok hrow
    rw [ScopeState.after, hperform] at hafter
    cases (congrArg Prod.snd hput : _ = after)
    exact ⟨time, rfl, hvalid, trivial, _, hafter⟩
  | database db =>
    have hafter : after.IsHealthy := by
      have hkept := hhealthy.performSync limits scope now (.put id payload)
      rwa [hput] at hkept
    obtain ⟨db', rfl, hrun⟩ := exists_of_database_eq hput
    obtain ⟨row, between, hrow, hreply⟩ := bind_eq_ok hrun
    cases hreply
    obtain ⟨state, hrecords⟩ := hsound scope
    obtain ⟨⟨time, rfl⟩, hvalid, hnul, hwritten⟩ := hrecords.put_eq_ok hrow
    exact ⟨time, rfl, hvalid, hnul, state, hafter.database, hwritten⟩

namespace LastWrote

variable (h : backend.LastWrote scope row)

include h

theorem id_ne_empty : row.id ≠ "" := ne_empty_of_checkRowId h.valid

/-- A live row is told as it was written just if its payload reads back. -/
theorem row_eq_iff (hlive : row.deleted = false) :
    backend.performSync limits scope now (.row row.id) = (.ok (.row row), backend) ↔
      backend.ReadsBack row.payload := by
  obtain ⟨hvalid, hbinds, state, hkeeps⟩ := h
  cases backend with
  | memory syncStore localStore =>
    refine iff_of_true (Prod.ext ?_ rfl) trivial
    rw [(hkeeps.performSync_memory limits now _).1, ScopeState.perform,
      state.getLive_put_self hvalid, hlive]
    rfl
  | database db =>
    obtain ⟨hhealthy, hrecords⟩ := hkeeps
    obtain ⟨hscope, hid, -⟩ := hasNul_writeRow.1 hbinds
    have hget : (state.put row).get? row.id = some row := by simp
    rw [performSync_database, database_eq_iff, Database.performSync,
      bind_pure_eq_ok_iff fun _ _ => SyncReply.row.inj]
    exact getLive_eq_ok_iff hrecords hhealthy hscope hget hid hvalid hlive

/-- A tombstone whose payload reads back counts as no row. -/
theorem row_eq_error (hdeleted : row.deleted = true) (hreads : backend.ReadsBack row.payload) :
    backend.performSync limits scope now (.row row.id) =
      (.error (.refused (.rowNotFound row.id)), backend) := by
  obtain ⟨hvalid, hbinds, state, hkeeps⟩ := h
  cases backend with
  | memory syncStore localStore =>
    refine Prod.ext ?_ rfl
    rw [(hkeeps.performSync_memory limits now _).1, ScopeState.perform,
      state.getLive_put_self hvalid, hdeleted]
    rfl
  | database db =>
    obtain ⟨hhealthy, hrecords⟩ := hkeeps
    obtain ⟨hscope, hid, -⟩ := hasNul_writeRow.1 hbinds
    have hget : (state.put row).get? row.id = some row := by simp
    have htold := getLive_eq_error hrecords hhealthy hscope hget hid hvalid hdeleted hreads
    rw [performSync_database, Database.performSync, bind_of_error htold]

/-- A row whose payload reads back is turned into a tombstone, which is then the last that was
written, unless the row has the largest timestamp. -/
theorem delete_eq (hreads : backend.ReadsBack row.payload) (limits : Limits) (now : Timestamp) :
    (row.modifiedAt = maxTimestamp →
      (backend.performSync limits scope now (.delete row.id)).1 =
        .error (.refused (.timestampsExhausted maxTimestamp))) ∧
    (row.modifiedAt ≠ maxTimestamp → ∃ time after,
      backend.performSync limits scope now (.delete row.id) =
        (.ok (.row (row.entomb time)), after) ∧ after.LastWrote scope (row.entomb time)) := by
  obtain ⟨hvalid, hbinds, state, hkeeps⟩ := h
  -- The mark is the timestamp of the row, since the row is the last that was written.
  have hnone (heq : row.modifiedAt = maxTimestamp) :
      (state.put row).nextTime now = .error (.timestampsExhausted maxTimestamp) := by
    rw [ScopeState.nextTime_of_le (UInt64.le_of_eq heq.symm), ScopeState.mark_put, heq]
  have hnext (hsound : (state.put row).Sound) (hne : row.modifiedAt ≠ maxTimestamp) :
      ∃ time, (state.put row).nextTime now = .ok time :=
    ⟨_, ScopeState.nextTime_of_lt (UInt64.lt_of_le_of_ne hsound.mark_le hne)⟩
  cases backend with
  | memory syncStore localStore =>
    obtain ⟨hresult, hafter⟩ := hkeeps.performSync_memory limits now (.delete row.id)
    rw [ScopeState.after] at hafter
    rw [state.perform_delete_put_self hvalid] at hresult hafter
    constructor
    · intro heq
      rw [hresult, hnone heq]
      rfl
    · intro hne
      obtain ⟨hsound, hstate⟩ := hkeeps
      obtain ⟨time, htime⟩ := hnext (hstate ▸ (hsound scope).state) hne
      rw [htime] at hresult hafter
      exact ⟨time, _, Prod.ext hresult rfl, hvalid, trivial, _, hafter⟩
  | database db =>
    obtain ⟨hhealthy, hrecords⟩ := hkeeps
    have hget : (state.put row).get? row.id = some row := by simp
    have hdelete : Database.delete scope now row.id db = _ :=
      hrecords.delete_eq hhealthy hbinds hvalid hget hreads
    constructor
    · intro heq
      rw [hnone heq] at hdelete
      rw [performSync_database, Database.performSync, bind_of_error hdelete]
    · intro hne
      obtain ⟨time, htime⟩ := hnext hrecords.sound hne
      rw [htime] at hdelete
      obtain ⟨hlt, hle⟩ := ScopeState.nextTime_eq_ok htime
      refine ⟨time, database (db.withRow scope (row.entomb time)), ?_, hvalid, hbinds,
        state.put row, ⟨hhealthy.isReachable, hhealthy.noFault⟩, hrecords.writeRow hlt hle⟩
      rw [performSync_database, database_eq_iff, Database.performSync,
        bind_pure_eq_ok_iff fun _ _ => SyncReply.row.inj]
      exact hdelete

/-- A row is turned into a tombstone with its own payload only if this reads back. -/
theorem reads_of_delete {time : Timestamp}
    (hdelete : backend.performSync limits scope now (.delete row.id) =
      (.ok (.row (row.entomb time)), after)) : backend.ReadsBack row.payload := by
  obtain ⟨-, -, state, hkeeps⟩ := h
  cases backend with
  | memory syncStore localStore => trivial
  | database db =>
    obtain ⟨-, hrecords⟩ := hkeeps
    have hget : (state.put row).get? row.id = some row := by simp
    obtain ⟨db', rfl, hrun⟩ := exists_of_database_eq hdelete
    obtain ⟨told, between, htold, hreply⟩ := bind_eq_ok hrun
    cases hreply
    exact hrecords.reads_of_delete hget htold

/-- A row is among the changes that are told since the beginning just if its payload reads back and
all rows of the sync table can be read. -/
theorem changesSince_lists_iff (limits : Limits) (now : Timestamp) :
    (∃ report, backend.performSync limits scope now (.changesSince 0) =
        (.ok (.report report), backend) ∧ row ∈ report.changes) ↔
      backend.ReadsBack row.payload ∧ backend.IsReadable scope := by
  obtain ⟨hvalid, hbinds, state, hkeeps⟩ := h
  have hget : (state.put row).get? row.id = some row := by simp
  cases backend with
  | memory syncStore localStore =>
    have hresult := (hkeeps.performSync_memory limits now (.changesSince 0)).1
    obtain ⟨hsound, hstate⟩ := hkeeps
    have hstateSound : (state.put row).Sound := hstate ▸ (hsound scope).state
    refine iff_of_true ⟨_, Prod.ext hresult rfl, ?_⟩ ⟨trivial, trivial⟩
    exact hstateSound.mem_changesAfter_iff.2 ⟨hget, hstateSound.positive hget⟩
  | database db =>
    obtain ⟨hhealthy, hrecords⟩ := hkeeps
    obtain ⟨hscope, hid, -⟩ := hasNul_writeRow.1 hbinds
    simp only [performSync_database, database_eq_iff, Database.performSync,
      bind_pure_eq_ok_iff fun _ _ => SyncReply.report.inj]
    rw [Database.changesSince_lists_iff hrecords hhealthy hscope hget (by decide)
      (hrecords.sound.positive hget)]
    -- Every row was changed after the beginning, and every entry of the table is one of a row.
    refine and_congr_right fun _ => ⟨fun hall id stored hstored => ?_, fun hall other hother => ?_⟩
    · rw [hrecords.get?_eq] at hstored
      obtain ⟨other, hother, rfl⟩ := Option.map_eq_some_iff.1 hstored
      have hkey : other.id = id := hrecords.sound.keyed hother
      exact hall other (hrecords.sound.mem_changesAfter_iff.2
        ⟨hkey ▸ hother, hrecords.sound.positive hother⟩)
    · have hfound := (hrecords.sound.mem_changesAfter_iff.1 hother).1
      refine hall other.id (.ofRow other) ?_
      rw [hrecords.get?_eq, hfound, Option.map_some]

end LastWrote

/-! ## Local tables -/

/-- The local table has the row, and the backend can be asked for it. -/
def StoresLocal (scope : Scope) (given : FlatRow) : Backend → Prop
  | memory _ localStore => LocalTables.Stores localStore scope given
  | database db => db.Healthy ∧ (Statement.writeLocalRow scope given).hasNul = false ∧
    db.tables.localRows.get? (.ofScope scope given.id) = some (payloadText given.fields)

/-- The local table has no row with the id, and the backend can be asked for it. -/
def LacksLocal (scope : Scope) (id : RowId) : Backend → Prop
  | memory _ localStore => (localStore.table scope).get? id = none
  | database db => db.Healthy ∧ scope.IsKept ∧ NulFree id ∧
    db.tables.localRows.get? (.ofScope scope id) = none

/-- A local row that was put is told as it was given, and the table has it. -/
theorem storesLocal_put (hnamed : backend.Named) (hhealthy : backend.IsHealthy)
    (hfree : given.fields.IsIdFree) {reply : LocalReply}
    (hput : backend.performLocal scope now (.put given) = (.ok reply, after)) :
    reply = .row given ∧ checkRowId given.id = .ok () ∧ after.StoresLocal scope given := by
  cases backend with
  | memory syncStore localStore =>
    cases hrun : LocalTables.put localStore scope now given with
    | mk outcome store =>
      have hcall : (memory syncStore localStore).performLocal scope now (.put given) =
          ((outcome.map .row).mapError .refused, memory syncStore store) := by
        simp only [performLocal, LocalTables.perform, mapReply, hrun]
      rw [hcall] at hput
      obtain ⟨hreply, rfl⟩ := Prod.mk.inj hput
      obtain ⟨told, rfl, rfl⟩ := map_eq_ok_iff.1 (mapError_eq_ok_iff.1 hreply)
      obtain ⟨rfl, hvalid, hstores⟩ := LocalTables.put_eq_ok hnamed.2 hfree hrun
      exact ⟨rfl, hvalid, hstores⟩
  | database db =>
    have hafter : after.IsHealthy := by
      have hkept := hhealthy.performLocal scope now (.put given)
      rwa [hput] at hkept
    obtain ⟨db', rfl, hrun⟩ := exists_of_database_eq hput
    obtain ⟨told, between, hput, hreply⟩ := bind_eq_ok hrun
    cases hreply
    obtain ⟨rfl, hvalid, hnul, htables⟩ := putLocal_eq_ok hput
    refine ⟨rfl, hvalid, hafter.database, hnul, ?_⟩
    rw [htables, withLocalRow, OrderedMap.get?_insert, if_pos rfl]

/-- A local row is told as it was put just if its payload reads back. -/
theorem StoresLocal.row_eq_iff (h : backend.StoresLocal scope given)
    (hvalid : checkRowId given.id = .ok ()) :
    backend.performLocal scope now (.row given.id) = (.ok (.row given), backend) ↔
      backend.ReadsBack given.fields := by
  cases backend with
  | memory syncStore localStore =>
    have hrow : LocalTables.row localStore scope given.id = .ok given :=
      LocalTables.Stores.row_eq h hvalid
    refine iff_of_true ?_ trivial
    simp only [performLocal, LocalTables.perform, hrow]
    rfl
  | database db =>
    obtain ⟨hhealthy, hnul, hget⟩ := h
    obtain ⟨hscope, hid, -⟩ := hasNul_writeLocalRow.1 hnul
    rw [performLocal_database, database_eq_iff, Database.performLocal,
      bind_pure_eq_ok_iff fun _ _ => LocalReply.row.inj]
    exact localRow_eq_ok_iff hhealthy hscope hid hvalid hget

/-- A local row is removed, be it readable or not. -/
theorem StoresLocal.delete_eq (h : backend.StoresLocal scope given)
    (hvalid : checkRowId given.id = .ok ()) (now : Timestamp) :
    ∃ after, backend.performLocal scope now (.delete given.id) = (.ok .done, after) ∧
      after.LacksLocal scope given.id := by
  cases backend with
  | memory syncStore localStore =>
    obtain ⟨hdelete, hlacks⟩ := LocalTables.Stores.delete_eq h hvalid
    refine ⟨_, Prod.ext ?_ rfl, hlacks⟩
    simp only [performLocal, LocalTables.perform, mapReply, hdelete]
    rfl
  | database db =>
    obtain ⟨hhealthy, hnul, hget⟩ := h
    obtain ⟨hscope, hid, -⟩ := hasNul_writeLocalRow.1 hnul
    have hcontains : db.tables.localRows.contains (.ofScope scope given.id) = true := by
      rw [OrderedMap.contains, hget, Option.isSome_some]
    have hdelete := deleteLocal_eq hhealthy hscope hid hvalid
    rw [if_pos hcontains] at hdelete
    refine ⟨database (db.withoutLocalRow scope given.id), ?_,
      ⟨hhealthy.isReachable, hhealthy.noFault⟩, hscope, hid, get?_withoutLocalRow db scope given.id⟩
    rw [performLocal_database, database_eq_iff, Database.performLocal, bind_of_ok hdelete]
    rfl

theorem LacksLocal.row_eq (h : backend.LacksLocal scope id) (hvalid : checkRowId id = .ok ()) :
    backend.performLocal scope now (.row id) = (.error (.refused (.rowNotFound id)), backend) := by
  cases backend with
  | memory syncStore localStore =>
    simp only [performLocal, LocalTables.perform, LocalTables.row_of_get?_eq_none h hvalid]
    rfl
  | database db =>
    obtain ⟨hhealthy, hscope, hid, hget⟩ := h
    have hrow := localRow_eq hhealthy hscope hid hvalid
    rw [hget, localRowOf] at hrow
    rw [performLocal_database, Database.performLocal, bind_of_error hrow]

theorem LacksLocal.delete_eq (h : backend.LacksLocal scope id) (hvalid : checkRowId id = .ok ()) :
    (backend.performLocal scope now (.delete id)).1 = .error (.refused (.rowNotFound id)) := by
  cases backend with
  | memory syncStore localStore =>
    simp only [performLocal, LocalTables.perform, mapReply,
      LocalTables.delete_of_get?_eq_none h hvalid]
    rfl
  | database db =>
    obtain ⟨hhealthy, hscope, hid, hget⟩ := h
    have hcontains : ¬db.tables.localRows.contains (.ofScope scope id) = true := by
      rw [OrderedMap.contains, hget, Option.isSome_none]
      exact Bool.false_ne_true
    have hdelete := deleteLocal_eq hhealthy hscope hid hvalid
    rw [if_neg hcontains] at hdelete
    rw [performLocal_database, Database.performLocal, bind_of_error hdelete]

end Backend

end RowSync
