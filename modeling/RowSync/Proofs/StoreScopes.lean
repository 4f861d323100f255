import RowSync.LocalTables
import RowSync.Proofs.Script.Transaction
import RowSync.Proofs.SyncTables

/-!
# The Scopes of a Store

A store keeps tables with rows only (`Store.Populated`), so that putting a table back as it was
taken out leaves the store as it was (`Populated.settle_table`). An operation on a store is all or
nothing (`Store.AllOrNothing`): if it fails, the store is the one before, down to the scopes that it
keeps and their clocks. This holds of a transaction with any body, and hence of every call on sync
tables and on local tables.
-/

namespace RowSync

namespace Store

variable {store : Store} {scope : Scope} {table : Table} {now : Timestamp} {ε α β : Type}

/-- Every table that is kept has rows. -/
def Populated (store : Store) : Prop :=
  ∀ scope table, store.tables.get? scope = some table → table.rows.isEmpty = false

theorem populated_empty : (∅ : Store).Populated := fun _ _ h => by cases h

/-- Putting a table back leaves tables with rows only, since one without rows is dropped. -/
theorem Populated.settle (h : store.Populated) (scope : Scope) (table : Table) :
    (store.settle scope table).Populated := by
  intro other kept hkept
  rw [Store.settle] at hkept
  split at hkept
  · rw [OrderedMap.get?_erase] at hkept
    split at hkept
    · cases hkept
    · exact h other kept hkept
  · rename_i hrows
    rw [OrderedMap.get?_insert] at hkept
    split at hkept
    · cases hkept
      exact Bool.eq_false_iff.2 hrows
    · exact h other kept hkept

/-- Putting a table back as it was taken out leaves the store as it was. -/
theorem Populated.settle_table (h : store.Populated) (scope : Scope) :
    store.settle scope (store.table scope) = store := by
  -- A scope that is kept has rows and is written over by itself; any other has none and stays out.
  have htables : (store.settle scope (store.table scope)).tables = store.tables := by
    refine OrderedMap.ext_get? fun other => ?_
    rw [Store.settle, Store.table]
    cases hget : store.tables.get? scope with
    | none =>
      show (store.tables.erase scope).get? other = store.tables.get? other
      rw [OrderedMap.get?_erase]
      split
      · rename_i heq
        rw [heq, hget]
      · rfl
    | some table =>
      have hrows : table.rows.isEmpty = false := h scope table hget
      simp only [Option.getD_some, hrows, Bool.false_eq_true, ↓reduceIte, OrderedMap.get?_insert]
      split
      · rename_i heq
        rw [heq, hget]
      · rfl
  calc store.settle scope (store.table scope)
      = ⟨(store.settle scope (store.table scope)).tables⟩ := rfl
    _ = store := by rw [htables]

/-! ## All or nothing -/

/-- The operation leaves tables with rows only, and if it fails it leaves the store as it was. -/
structure AllOrNothing (store : Store) (outcome : Except ε α × Store) : Prop where
  /-- Every table that is kept has rows. -/
  populated : outcome.2.Populated
  /-- A failure leaves the store as it was. -/
  restored : ∀ e, outcome.1 = .error e → outcome.2 = store

/-- An operation that leaves the store as it is, whatever it tells. -/
theorem Populated.allOrNothing_self (h : store.Populated) (told : Except ε α) :
    store.AllOrNothing (told, store) :=
  ⟨h, fun _ _ => rfl⟩

/-- A transaction is all or nothing, whatever is done in it. -/
theorem Populated.allOrNothing_transact (h : store.Populated) (scope : Scope) (now : Timestamp)
    (body : Transaction → Except ε (α × Transaction)) :
    store.AllOrNothing (store.transact scope now body) := by
  rw [transact]
  split
  · exact ⟨h.settle scope _, fun e he => by cases he⟩
  · -- The table that was taken out is put back.
    rw [h.settle_table scope]
    exact h.allOrNothing_self _

theorem Populated.allOrNothing_guarded (h : store.Populated) {check : Except SyncError Unit}
    {action : Store → Except SyncError α × Store} (haction : store.AllOrNothing (action store)) :
    store.AllOrNothing (store.guarded check action) := by
  cases check with
  | ok _ => exact haction
  | error e => exact h.allOrNothing_self _

theorem AllOrNothing.mapReply {outcome : Except ε α × Store} (h : store.AllOrNothing outcome)
    (reply : α → β) : store.AllOrNothing (mapReply reply outcome) where
  populated := h.populated
  restored e he := h.restored e (map_eq_error_iff.1 he)

/-- Writing a row is all or nothing. -/
theorem Populated.allOrNothing_upsert (h : store.Populated) (scope : Scope) (now : Timestamp)
    (id : RowId) (payload : Payload) : store.AllOrNothing (store.upsert scope now id payload) :=
  h.allOrNothing_guarded (h.allOrNothing_transact scope now _)

/-- Turning a row into a tombstone is all or nothing. -/
theorem Populated.allOrNothing_delete (h : store.Populated) (scope : Scope) (now : Timestamp)
    (id : RowId) : store.AllOrNothing (store.delete scope now id) :=
  h.allOrNothing_guarded (h.allOrNothing_transact scope now _)

/-- Removing a row is all or nothing. -/
theorem Populated.allOrNothing_remove (h : store.Populated) (scope : Scope) (id : RowId) :
    store.AllOrNothing (store.remove scope id) := by
  refine h.allOrNothing_guarded ?_
  cases hget : store.tables.get? scope with
  | none => exact h.allOrNothing_self _
  | some table =>
    dsimp only
    cases hrow : table.get? id with
    | some row => exact ⟨h.settle scope _, fun e he => by cases he⟩
    | none =>
      -- No row is taken out of the table, which is put back.
      have htable : store.table scope = table := by rw [Store.table, hget, Option.getD_some]
      have hremove : table.remove id = table := by rw [Table.remove, hrow]
      rw [hremove, ← htable, h.settle_table scope]
      exact h.allOrNothing_self _

/-- The stores that are reached from the store without rows by writing, deleting and removing rows
and by transactions with any bodies, whether these succeed or fail. -/
inductive Reachable : Store → Prop
  | empty : Reachable ∅
  | upsert {store : Store} (scope : Scope) (now : Timestamp) (id : RowId) (payload : Payload)
    (hreach : Reachable store) : Reachable (store.upsert scope now id payload).2
  | delete {store : Store} (scope : Scope) (now : Timestamp) (id : RowId)
    (hreach : Reachable store) : Reachable (store.delete scope now id).2
  | remove {store : Store} (scope : Scope) (id : RowId) (hreach : Reachable store) :
    Reachable (store.remove scope id).2
  | transact {store : Store} {ε α : Type} (scope : Scope) (now : Timestamp)
    (body : Transaction → Except ε (α × Transaction)) (hreach : Reachable store) :
    Reachable (store.transact scope now body).2

/-- A store that is reached keeps tables with rows only. -/
theorem Reachable.populated (h : Reachable store) : store.Populated := by
  induction h with
  | empty => exact populated_empty
  | upsert scope now id payload _ ih =>
    exact (ih.allOrNothing_upsert scope now id payload).populated
  | delete scope now id _ ih => exact (ih.allOrNothing_delete scope now id).populated
  | remove scope id _ ih => exact (ih.allOrNothing_remove scope id).populated
  | transact scope now body _ ih => exact (ih.allOrNothing_transact scope now body).populated

end Store

/-! ## Calls -/

namespace SyncTables

variable {limits : Limits} {store : Store}

/-- Every call on a sync table is all or nothing. -/
theorem allOrNothing_perform (h : store.Populated) (limits : Limits) (scope : Scope)
    (now : Timestamp) (call : SyncCall) :
    store.AllOrNothing (perform limits store scope now call) := by
  cases hscript : call.script? with
  | none =>
    have hstore : (perform limits store scope now call).2 = store := perform_of_reads hscript
    exact ⟨by rwa [hstore], fun _ _ => hstore⟩
  | some script =>
    -- What is done in the transaction does not matter.
    rw [perform_of_script hscript]
    exact h.allOrNothing_guarded (h.allOrNothing_transact scope now _)

/-- Calls on sync tables leave tables with rows only. -/
theorem RunsTo.populated {start : Store} (hrun : RunsTo limits start store)
    (h : start.Populated) : store.Populated := by
  induction hrun with
  | refl => exact h
  | call scope now call _ ih => exact (allOrNothing_perform ih limits scope now call).populated

end SyncTables

namespace LocalTables

variable {store : Store}

/-- Every call on a local table is all or nothing. -/
theorem allOrNothing_perform (h : store.Populated) (scope : Scope) (now : Timestamp)
    (call : LocalCall) : store.AllOrNothing (perform store scope now call) := by
  cases call with
  | rows | row => exact h.allOrNothing_self _
  | put row =>
    exact ((h.allOrNothing_upsert scope now row.id row.fields).mapReply _).mapReply _
  | delete id => exact ((h.allOrNothing_remove scope id).mapReply _).mapReply _

/-- The stores that are reached by calls on local tables from the store without rows. -/
inductive Reachable : Store → Prop
  | empty : Reachable ∅
  | call {store : Store} (scope : Scope) (now : Timestamp) (call : LocalCall)
    (hreach : Reachable store) : Reachable (perform store scope now call).2

theorem Reachable.populated (h : Reachable store) : store.Populated := by
  induction h with
  | empty => exact Store.populated_empty
  | call scope now call _ ih => exact (allOrNothing_perform ih scope now call).populated

end LocalTables

end RowSync
