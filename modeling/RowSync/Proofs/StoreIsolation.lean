import RowSync.Proofs.Confinement
import RowSync.Proofs.StoreScopes

/-!
# Isolation in a Store

Every call on a scope of a store is confined to the table that the store keeps for the scope
(`Store.confined_performSync`, `Store.confined_performLocal`): nothing else decides what it tells
and what becomes of the table, down to whether the scope is kept at all, and the tables of all other
scopes stay as they are.
-/

namespace RowSync.Store

variable {scope other : Scope} {α β : Type}

/-- What a store keeps for a scope, if it keeps the scope. -/
def kept (scope : Scope) (store : Store) : Option Table := store.tables.get? scope

/-- The action on a store is confined to a scope. -/
abbrev Confined (scope : Scope) (action : Store → Except SyncError α × Store) : Prop :=
  ConfinedTo (fun _ => True) kept scope action

/-- What is kept of a scope decides its table. -/
theorem table_eq_of_kept_eq {store store' : Store} (h : kept scope store = kept scope store') :
    store.table scope = store'.table scope :=
  congrArg (Option.getD · ∅) h

/-- What is kept after a table was put back: of its scope just this table, unless it has no rows. -/
theorem kept_settle (store : Store) (scope other : Scope) (table : Table) :
    kept other (store.settle scope table) =
      if other = scope then (if table.rows.isEmpty then none else some table)
      else kept other store := by
  rw [kept, settle]
  split
  · exact OrderedMap.get?_erase store.tables scope other
  · exact OrderedMap.get?_insert store.tables scope other table

theorem kept_settle_self (store : Store) (scope : Scope) (table : Table) :
    kept scope (store.settle scope table) =
      if table.rows.isEmpty then none else some table := by
  rw [kept_settle, if_pos rfl]

theorem kept_settle_of_ne (store : Store) (h : other ≠ scope) (table : Table) :
    kept other (store.settle scope table) = kept other store := by
  rw [kept_settle, if_neg h]

/-! ## Operations -/

/-- A transaction is confined to its scope, whatever is done in it. -/
theorem confined_transact (scope : Scope) (now : Timestamp)
    (body : Transaction → Except SyncError (α × Transaction)) :
    Confined scope fun store => store.transact scope now body where
  alike {store store'} _ _ h := by
    -- Either way a table is put back that is known from the table before.
    rw [transact, transact, table_eq_of_kept_eq h]
    split
    · exact ⟨rfl, by rw [kept_settle_self, kept_settle_self]⟩
    · exact ⟨rfl, by rw [kept_settle_self, kept_settle_self]⟩
  others {store other} _ hother := by
    rw [transact]
    split
    · exact kept_settle_of_ne store hother _
    · exact kept_settle_of_ne store hother _
  sound h := h

theorem Confined.guarded {action : Store → Except SyncError α × Store} (h : Confined scope action)
    (check : Except SyncError Unit) : Confined scope fun store => store.guarded check action := by
  cases check with
  | ok _ => exact h
  | error e => exact confinedTo_of_reads (fun _ => rfl) fun _ _ _ => rfl

theorem Confined.mapReply {action : Store → Except SyncError α × Store} (h : Confined scope action)
    (reply : α → β) : Confined scope fun store => mapReply reply (action store) :=
  ConfinedTo.map h (Except.map reply)

/-- Removing a row is confined to its scope. -/
theorem confined_remove (scope : Scope) (id : RowId) :
    Confined scope fun store => store.remove scope id := by
  refine Confined.guarded ?_ (checkRowId id)
  -- A scope that is not kept stays out; of one that is kept the table is put back without the row.
  have heq (store : Store) : store.tables.get? scope = kept scope store := rfl
  simp only [heq]
  refine ⟨fun {store store'} _ _ h => ?_, fun {store other} _ hother => ?_, fun h => h⟩
  · rw [h]
    cases hkept : kept scope store' with
    | none => exact ⟨rfl, by rw [h]⟩
    | some table =>
      dsimp only
      cases table.get? id with
      | some row => exact ⟨rfl, by rw [kept_settle_self, kept_settle_self]⟩
      | none => exact ⟨rfl, by rw [kept_settle_self, kept_settle_self]⟩
  · cases kept scope store with
    | none => rfl
    | some table =>
      dsimp only
      split
      · exact kept_settle_of_ne store hother _
      · exact kept_settle_of_ne store hother _

/-! ## Calls -/

/-- Every call on a sync table is confined to its scope. -/
theorem confined_performSync (limits : Limits) (scope : Scope) (now : Timestamp)
    (call : SyncCall) :
    Confined scope fun store => SyncTables.perform limits store scope now call := by
  cases hscript : call.script? with
  | some script =>
    -- Every call that writes is one transaction, and what is done in it does not matter.
    simp only [SyncTables.perform_of_script hscript]
    exact (confined_transact scope now script.run).guarded _
  | none =>
    -- The calls that read tell something about the table.
    refine confinedTo_of_reads (fun _ => SyncTables.perform_of_reads hscript) fun _ _ h => ?_
    cases call with
    | rows | row | snapshot | changesSince =>
      simp only [SyncTables.perform, SyncTables.snapshot, SyncTables.changesSince, liveRows,
        Store.get, table_eq_of_kept_eq h]
    | put | delete | sync | push | replace | putIfRecent | deleteIfRecent => cases hscript

/-- Every call on a local table is confined to its scope. -/
theorem confined_performLocal (scope : Scope) (now : Timestamp) (call : LocalCall) :
    Confined scope fun store => LocalTables.perform store scope now call := by
  cases call with
  | rows | row =>
    refine confinedTo_of_reads (fun _ => rfl) fun _ _ h => ?_
    simp only [LocalTables.perform, LocalTables.rows, LocalTables.row, liveRows, Store.get,
      table_eq_of_kept_eq h]
  | put row =>
    have hput : Confined scope fun store => store.upsert scope now row.id row.fields :=
      (confined_transact scope now _).guarded _
    exact (hput.mapReply Row.flatten).mapReply LocalReply.row
  | delete id =>
    exact ((confined_remove scope id).mapReply fun _ => ()).mapReply fun _ => LocalReply.done

end RowSync.Store
