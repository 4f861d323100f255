import RowSync.Backend
import RowSync.Proofs.Database.Sync
import RowSync.Proofs.SyncTables

/-!
# Backends in Step

A store and a database are alike if the database holds the states of all scopes of the store
(`Backend.Alike`). Alike backends answer every call on a sync table alike and stay alike, as long as
the database keeps what the call names and writes (`Alike.perform`). For a row that is put and then
asked for this is needed (`put_agrees_iff`).
-/

namespace RowSync.Backend

variable {scope : Scope} {memory database : Backend} {call : SyncCall}

/-- The second backend is a database that holds the states of all scopes of the first one, a store.
-/
inductive Alike : Backend → Backend → Prop
  | intro {store : Store} (localStore : Store) {db : Database} (hsound : store.Sound)
    (hholds : ∀ scope, db.Holds scope (store.state scope)) :
    Alike (.memory store localStore) (.database db)

theorem holds_empty (scope : Scope) : (∅ : Database).Holds scope .initial where
  healthy := ⟨rfl, rfl⟩
  rows := rfl
  kept hget := by cases hget
  sound := ScopeState.sound_initial

theorem alike_empty : Alike (.memory ∅ ∅) (.database ∅) :=
  .intro ∅ Store.sound_empty holds_empty

/-- Alike backends answer a call on a sync table alike and stay alike, if the database keeps what
the call names and writes. -/
theorem Alike.perform (h : Alike memory database) (limits : Limits) (now : Timestamp)
    (hscope : scope.IsKept) (hkept : call.IsKept) (hrange : call.InRange) :
    (memory.performSync limits scope now call).1 = (database.performSync limits scope now call).1 ∧
      Alike (memory.performSync limits scope now call).2
        (database.performSync limits scope now call).2 := by
  cases h with
  | @intro store localStore db hsound hholds =>
    have hfollows : store.Follows scope (SyncTables.perform limits store scope now call) _ :=
      SyncTables.follows_perform hsound call
    have hanswers : Database.Answers scope db (store.state scope)
        (Database.performSync limits scope now call db) _ :=
      (hholds scope).answers_perform hscope hkept hrange
    have hresult : (SyncTables.perform limits store scope now call).1.mapError .refused =
        (Database.performSync limits scope now call db).1 := by
      rw [hfollows.result, hanswers.result]
    have hafter (other : Scope) : (Database.performSync limits scope now call db).2.Holds other
        ((SyncTables.perform limits store scope now call).2.state other) := by
      by_cases hother : other = scope
      · subst hother
        rw [hfollows.state]
        exact hanswers.holds
      · -- The rows of another scope are as before, and the database is as healthy as for this one.
        rw [hfollows.others other hother]
        have hbefore := hholds other
        exact ⟨hanswers.holds.healthy, (hanswers.others other hother).trans hbefore.rows,
          hbefore.kept, hbefore.sound⟩
    exact ⟨hresult, .intro localStore hfollows.sound hafter⟩

/-! ## Payloads that are not kept -/

section Kept

variable {id : RowId} {payload : Payload}

/-- The row that a first write to a scope makes. -/
def firstRow (now : Timestamp) (id : RowId) (payload : Payload) : Row :=
  .create id payload (HybridClock.next ⟨0⟩ now)

/-- The database that has one row. -/
def databaseOf (scope : Scope) (row : Row) : Database :=
  ⟨⟨(∅ : OrderedMap Database.RowKey Database.StoredRow).insert (.ofScope scope row.id) (.ofRow row),
    ∅⟩, true, none⟩

/-- A first write to a state puts the row. -/
theorem perform_put_initial (hvalid : checkRowId id = .ok ()) (limits : Limits) (now : Timestamp)
    (payload : Payload) : ScopeState.initial.perform limits now (.put id payload) =
      .ok (.row (firstRow now id payload), ScopeState.initial.put (firstRow now id payload)) := by
  have hmark : ScopeState.initial.mark < maxTimestamp := by decide
  have hupsert : ScopeState.initial.upsert now id payload =
      .ok (firstRow now id payload, ScopeState.initial.put (firstRow now id payload)) := by
    rw [ScopeState.upsert, ScopeState.nextTime_of_lt hmark]
    rfl
  rw [ScopeState.perform, hvalid]
  show ScopeState.writing SyncReply.row (ScopeState.initial.upsert now id payload) = _
  rw [hupsert]
  rfl

/-- A first write to a store succeeds, and the row is found. -/
theorem memory_put (hvalid : checkRowId id = .ok ()) (limits : Limits) (scope : Scope)
    (now later : Timestamp) (payload : Payload) :
    ∃ store, performSync limits (.memory ∅ ∅) scope now (.put id payload) =
        (.ok (.row (firstRow now id payload)), .memory store ∅) ∧
      (performSync limits (.memory store ∅) scope later (.row id)).1 =
        .ok (.row (firstRow now id payload)) := by
  have hput : (∅ : Store).Follows scope
      (SyncTables.perform limits ∅ scope now (.put id payload)) _ :=
    SyncTables.follows_perform Store.sound_empty _
  have hget : (SyncTables.perform limits ∅ scope now (.put id payload)).2.Follows scope
      (SyncTables.perform limits _ scope later (.row id)) _ :=
    SyncTables.follows_perform hput.sound _
  have hstate : (∅ : Store).state scope = .initial := rfl
  refine ⟨(SyncTables.perform limits ∅ scope now (.put id payload)).2, ?_, ?_⟩
  · show ((SyncTables.perform limits ∅ scope now (.put id payload)).1.mapError CallError.refused,
      _) = _
    rw [hput.result, hstate, perform_put_initial hvalid]
    rfl
  · -- The row is live, as it was just created.
    show (SyncTables.perform limits _ scope later (.row id)).1.mapError CallError.refused = _
    rw [hget.result, hput.state, hstate, perform_put_initial hvalid]
    show (((ScopeState.initial.put (firstRow now id payload)).perform limits later (.row id)).map
      Prod.fst).mapError CallError.refused = _
    rw [ScopeState.perform, ScopeState.getLive, hvalid, ScopeState.get?_put]
    simp only [firstRow, Row.create, ↓reduceIte]
    rfl

theorem tick_empty_eq (scope : Scope) (now : Timestamp) :
    (Database.Writer.ofState scope now .initial).tick none ∅ =
      (.ok (HybridClock.next ⟨0⟩ now, ⟨scope, ⟨HybridClock.next ⟨0⟩ now⟩, now⟩), ∅) := by
  have hmark : (⟨0⟩ : HybridClock).highWater < maxTimestamp := by decide
  exact Database.tick_of_ok (HybridClock.tick_of_lt hmark) ∅

/-- The first write of a writer stores a new row. -/
theorem upsert_empty_eq (hscope : scope.IsKept) (hid : NulFree id) {now : Timestamp} :
    (Database.Writer.ofState scope now .initial).upsert id payload none ∅ =
      Database.Writer.store ⟨scope, ⟨HybridClock.next ⟨0⟩ now⟩, now⟩ (firstRow now id payload)
        ∅ := by
  rw [(holds_empty scope).upsert_eq hscope now none payload hid,
    Database.bind_of_ok (tick_empty_eq scope now)]
  rfl

/-- What is done in the transaction that puts a row. -/
def putting (scope : Scope) (now : Timestamp) (id : RowId) (payload : Payload) :
    Database.Session Row := do
  let writer ← Database.Writer.start scope now
  return (← writer.upsert id payload none).1

/-- Putting a row in a database is one transaction. -/
theorem performSync_put_eq (hvalid : checkRowId id = .ok ()) (limits : Limits) (scope : Scope)
    (now : Timestamp) (payload : Payload) :
    Database.performSync limits scope now (.put id payload) =
      (Database.transaction (putting scope now id payload) >>= fun row =>
        pure (SyncReply.row row)) := by
  rw [Database.performSync, Database.put, hvalid]
  rfl

/-- A first write to a database that keeps the names and can write the payload stores a row. -/
theorem database_put (hscope : scope.IsKept) (hid : NulFree id) (hvalid : checkRowId id = .ok ())
    (hpayload : Database.jsonHasNul payload.toJson = false) (limits : Limits) (now : Timestamp) :
    performSync limits (.database ∅) scope now (.put id payload) =
      (.ok (.row (firstRow now id payload)),
        .database (databaseOf scope (firstRow now id payload))) := by
  have h := holds_empty scope
  have hnul : (Database.Statement.writeRow scope (firstRow now id payload)).hasNul = false :=
    Database.hasNul_writeRow.2 ⟨hscope, hid, hpayload⟩
  have hupsert : (Database.Writer.ofState scope now .initial).upsert id payload none ∅ =
      (.ok (firstRow now id payload, ⟨scope, ⟨HybridClock.next ⟨0⟩ now⟩, now⟩),
        databaseOf scope (firstRow now id payload)) := by
    rw [upsert_empty_eq hscope hid, Database.Writer.store,
      Database.bind_of_ok (Database.run_eq h.healthy hnul)]
    rfl
  have hbody : putting scope now id payload ∅ =
      (.ok (firstRow now id payload), databaseOf scope (firstRow now id payload)) := by
    rw [putting, Database.bind_of_ok (h.start_eq hscope now), Database.bind_of_ok hupsert]
    rfl
  have hput : Database.performSync limits scope now (.put id payload) ∅ =
      (.ok (.row (firstRow now id payload)), databaseOf scope (firstRow now id payload)) := by
    rw [performSync_put_eq hvalid,
      Database.bind_of_ok (Database.transaction_of_ok h.healthy ⟨rfl, rfl⟩ hbody)]
    rfl
  show ((Database.performSync limits scope now (.put id payload) ∅).1,
    database (Database.performSync limits scope now (.put id payload) ∅).2) = _
  rw [hput]

/-- A first write to a database fails if a name or the payload has U+0000. -/
theorem database_put_of_not (hvalid : checkRowId id = .ok ())
    (hnot : ¬(scope.IsKept ∧ NulFree id ∧ Database.jsonHasNul payload.toJson = false))
    (limits : Limits) (now : Timestamp) :
    (performSync limits (.database ∅) scope now (.put id payload)).1 = .error .database := by
  have h := holds_empty scope
  have hbody : putting scope now id payload ∅ = (.error .database, ∅) := by
    by_cases hscope : scope.IsKept
    · rw [putting, Database.bind_of_ok (h.start_eq hscope now)]
      refine Database.bind_of_error ?_
      by_cases hid : NulFree id
      · -- The row is found to be new, and cannot be stored.
        have hnul : (Database.Statement.writeRow scope (firstRow now id payload)).hasNul = true :=
          Bool.eq_true_of_not_eq_false fun hfalse => hnot (Database.hasNul_writeRow.1 hfalse)
        rw [upsert_empty_eq hscope hid]
        exact Database.bind_of_error (Database.run_of_hasNul hnul ∅)
      · -- The row cannot be looked for.
        have hnul : (Database.Statement.row scope id).hasNul = true :=
          Bool.eq_true_of_not_eq_false fun hfalse => hid (Database.hasNul_row.1 hfalse).2
        have hrow : Database.getRow? scope id ∅ = (.error .database, ∅) :=
          Database.bind_of_error (Database.run_of_hasNul hnul ∅)
        rw [Database.Writer.upsert, Database.bind_of_ok (tick_empty_eq scope now)]
        exact Database.bind_of_error hrow
    · -- The scope cannot be locked.
      have hnul : (Database.Statement.lock .exclusive scope).hasNul = true :=
        Bool.eq_true_of_not_eq_false fun hfalse => hscope (Database.hasNul_lock.1 hfalse)
      exact Database.bind_of_error
        (Database.bind_of_error (Database.run_of_hasNul hnul ∅))
  show (Database.performSync limits scope now (.put id payload) ∅).1 = _
  rw [performSync_put_eq hvalid,
    Database.bind_of_error (Database.transaction_of_error h.healthy hbody)]

/-- The row of a database that has one is read from its columns. -/
theorem database_row (hscope : scope.IsKept) (hid : NulFree id) (hvalid : checkRowId id = .ok ())
    (limits : Limits) (now later : Timestamp) (payload : Payload) :
    (performSync limits (.database (databaseOf scope (firstRow now id payload))) scope later
        (.row id)).1 =
      match (Database.StoredRow.ofRow (firstRow now id payload)).toRow? id with
      | some row => .ok (.row row)
      | none => .error .database := by
  let db := databaseOf scope (firstRow now id payload)
  have hnul : (Database.Statement.row scope id).hasNul = false :=
    Database.hasNul_row.2 ⟨hscope, hid⟩
  -- The scope has this row and no other.
  have hlist : Database.Tables.ofScope db.tables.syncRows scope =
      [Database.entry (firstRow now id payload)] := by
    have hrows : Database.scopeRows db.tables.syncRows scope =
        (∅ : OrderedMap RowId Database.StoredRow).insert id (.ofRow (firstRow now id payload)) := by
      refine OrderedMap.ext_get? fun other => ?_
      have hkey : db.tables.syncRows.get? (.ofScope scope other) =
          if Database.RowKey.ofScope scope other = .ofScope scope id then
            some (Database.StoredRow.ofRow (firstRow now id payload)) else none :=
        OrderedMap.get?_insert ..
      rw [Database.get?_scopeRows, hkey, OrderedMap.get?_insert]
      simp only [Database.ofScope_inj, true_and, OrderedMap.get?_empty]
    exact congrArg OrderedMap.toList hrows
  have hrun : Database.run (.row scope id) db =
      (.ok [Database.entry (firstRow now id payload)], db) := by
    have hfilter : [Database.entry (firstRow now id payload)].filter (·.1 == id) =
        [Database.entry (firstRow now id payload)] := by
      simp [Database.entry, firstRow, Row.create]
    rw [Database.run_eq ⟨rfl, rfl⟩ hnul, Database.Statement.eval, hlist, hfilter]
  have hentry : Database.entry (firstRow now id payload) =
      (id, Database.StoredRow.ofRow (firstRow now id payload)) := rfl
  show (Database.performSync limits scope later (.row id) db).1 = _
  -- Whether the columns read back decides between the row and a failure.
  cases hrow : (Database.StoredRow.ofRow (firstRow now id payload)).toRow? id with
  | some row =>
    have hread : Database.readRows [Database.entry (firstRow now id payload)] db =
        (.ok [row], db) := by
      rw [hentry, Database.readRows]
      simp only [hrow]
      rfl
    have hlive : row.isLive := by
      obtain ⟨_, -, rfl⟩ := Option.map_eq_some_iff.1 hrow
      rfl
    have hget : Database.getRow? scope id db = (.ok (some row), db) := by
      rw [Database.getRow?, Database.bind_of_ok hrun, Database.bind_of_ok hread]
      rfl
    have hgetLive : Database.getLive scope id db = (.ok row, db) := by
      rw [Database.getLive, hvalid]
      show (Database.getRow? scope id >>= _) db = _
      rw [Database.bind_of_ok hget, Option.filter_some, if_pos hlive]
      rfl
    rw [Database.performSync, Database.bind_of_ok hgetLive]
    rfl
  | none =>
    have hread : Database.readRows [Database.entry (firstRow now id payload)] db =
        (.error .database, db) := by
      rw [hentry, Database.readRows]
      simp only [hrow]
      rfl
    have hget : Database.getRow? scope id db = (.error .database, db) := by
      rw [Database.getRow?, Database.bind_of_ok hrun, Database.bind_of_error hread]
    have hgetLive : Database.getLive scope id db = (.error .database, db) := by
      rw [Database.getLive, hvalid]
      show (Database.getRow? scope id >>= _) db = _
      rw [Database.bind_of_error hget]
    rw [Database.performSync, Database.bind_of_error hgetLive]

/-- Backends without rows tell the same of a row that is put and then asked for just if the database
keeps what is put. -/
theorem put_agrees_iff (hvalid : checkRowId id = .ok ()) (limits : Limits) (scope : Scope)
    (now later : Timestamp) (payload : Payload) :
    ((performSync limits (.memory ∅ ∅) scope now (.put id payload)).1 =
        (performSync limits (.database ∅) scope now (.put id payload)).1 ∧
      (performSync limits (performSync limits (.memory ∅ ∅) scope now (.put id payload)).2 scope
        later (.row id)).1 =
        (performSync limits (performSync limits (.database ∅) scope now (.put id payload)).2 scope
          later (.row id)).1) ↔ scope.IsKept ∧ (SyncCall.put id payload).IsKept := by
  constructor
  · rintro ⟨hput, hrow⟩
    obtain ⟨store, hmemory, hfound⟩ := memory_put hvalid limits scope now later payload
    rw [hmemory] at hput hrow
    by_cases hcan : scope.IsKept ∧ NulFree id ∧ Database.jsonHasNul payload.toJson = false
    · obtain ⟨hscope, hid, hnul⟩ := hcan
      rw [hfound, database_put hscope hid hvalid hnul, database_row hscope hid hvalid] at hrow
      refine ⟨hscope, hid, hnul, ?_⟩
      -- The row that was read is the one that was put, so its payload is.
      have hread : (Database.StoredRow.ofRow (firstRow now id payload)).toRow? id =
          some (firstRow now id payload) := by
        split at hrow
        · rename_i row hread
          cases hrow
          exact hread
        · cases hrow
      obtain ⟨kept, hkept, heq⟩ := Option.map_eq_some_iff.1 hread
      have hpayload : kept = payload := congrArg Row.payload heq
      exact hkept.trans (congrArg some hpayload)
    · rw [database_put_of_not hvalid hcan] at hput
      cases hput
  · -- Both calls are kept, so that the backends stay in step.
    rintro ⟨hscope, hkept⟩
    have hid : (SyncCall.row id).IsKept := hkept.1
    obtain ⟨hput, halike⟩ := alike_empty.perform limits now hscope hkept trivial
    exact ⟨hput, (halike.perform limits later hscope hid trivial).1⟩

end Kept

end RowSync.Backend
