import RowSync.Scope
import RowSync.Transaction

/-!
# Stores

The tables of many scopes. Only scopes that have rows are kept: an operation opens the table of its
scope, which is empty for an unknown scope, and puts it back unless it is empty then.
-/

namespace RowSync

/-- The tables of many scopes. -/
structure Store where
  /-- The tables by scope. -/
  tables : OrderedMap Scope Table
deriving DecidableEq, Repr

namespace Store

/-- The store without rows. -/
def empty : Store := ⟨∅⟩

instance : EmptyCollection Store := ⟨empty⟩

instance : Inhabited Store := ⟨empty⟩

/-- The number of scopes that have rows. -/
def scopeCount (store : Store) : Nat := store.tables.size

/-- The table of a scope. -/
def table (store : Store) (scope : Scope) : Table := (store.tables.get? scope).getD ∅

/-- Put the table of a scope back; a table without rows is dropped, and its clock with it. -/
def settle (store : Store) (scope : Scope) (table : Table) : Store :=
  if table.rows.isEmpty then ⟨store.tables.erase scope⟩ else ⟨store.tables.insert scope table⟩

/-- Run a transaction on a scope. Its writes are committed if it succeeds; if it fails the table is
put back as it was. -/
def transact {ε α : Type} (store : Store) (scope : Scope) (now : Timestamp)
    (body : Transaction → Except ε (α × Transaction)) : Except ε α × Store :=
  match body (.start (store.table scope) now) with
  | .ok (result, txn) => (.ok result, store.settle scope txn.commit)
  | .error e => (.error e, store.settle scope (store.table scope))

/-- Go on only if a check succeeds. -/
def guarded {α : Type} (store : Store) (check : Except SyncError Unit)
    (action : Store → Except SyncError α × Store) : Except SyncError α × Store :=
  match check with
  | .ok () => action store
  | .error e => (.error e, store)

/-- A scope of which nothing is kept has the empty table. -/
@[simp]
theorem table_empty (scope : Scope) : (∅ : Store).table scope = ∅ := rfl

/-- Putting back a table leaves the tables of all other scopes as they are. -/
theorem table_settle_of_ne {store : Store} {scope other : Scope} {table : Table}
    (h : other ≠ scope) : (store.settle scope table).table other = store.table other := by
  unfold settle Store.table
  split <;> simp [h]

/-- A table that was put back is found again, unless it is empty. -/
theorem table_settle_self (store : Store) (scope : Scope) (table : Table) :
    (store.settle scope table).table scope = if table.rows.isEmpty then ∅ else table := by
  unfold settle Store.table
  split <;> simp_all

/-- What holds of the table that is put back, or of the empty table if it has no rows, and of the
tables of all other scopes, holds of all tables afterwards. -/
theorem forall_table_settle {store : Store} {scope : Scope} {table : Table}
    (holds : Scope → Table → Prop) (htable : holds scope table)
    (hempty : table.rows.isEmpty → holds scope ∅)
    (hothers : ∀ other, other ≠ scope → holds other (store.table other)) (other : Scope) :
    holds other ((store.settle scope table).table other) := by
  by_cases heq : other = scope
  · subst heq
    rw [table_settle_self]
    split
    · exact hempty ‹_›
    · exact htable
  · rw [table_settle_of_ne heq]
    exact hothers other heq

/-- A transaction on one scope leaves the tables of all other scopes as they are. -/
theorem table_transact_of_ne {ε α : Type} {store : Store} {scope other : Scope} {now : Timestamp}
    {body : Transaction → Except ε (α × Transaction)} (h : other ≠ scope) :
    (store.transact scope now body).2.table other = store.table other := by
  unfold transact
  split <;> exact table_settle_of_ne h

/-! ## Single rows -/

/-- The live row with an id. -/
def get (store : Store) (scope : Scope) (id : RowId) : Except SyncError Row := do
  checkRowId id
  match (store.table scope).getLive? id with
  | some row => .ok row
  | none => .error (.rowNotFound id)

/-- The live rows of a scope in the order of their ids. -/
def liveRows (store : Store) (scope : Scope) : List Row := (store.table scope).liveRows

/-- Write a payload to a row. -/
def upsert (store : Store) (scope : Scope) (now : Timestamp) (id : RowId) (payload : Payload) :
    Except SyncError Row × Store :=
  store.guarded (checkRowId id) fun store =>
    store.transact scope now fun txn => txn.upsert id payload none

/-- Turn a row into a tombstone. -/
def delete (store : Store) (scope : Scope) (now : Timestamp) (id : RowId) :
    Except SyncError Row × Store :=
  store.guarded (checkRowId id) fun store =>
    store.transact scope now fun txn => txn.delete id none

/-- Remove a row, of which not even a tombstone stays. Only for tables that no client keeps in
step with its own, since clients never learn of the removal. -/
def remove (store : Store) (scope : Scope) (id : RowId) : Except SyncError Row × Store :=
  store.guarded (checkRowId id) fun store =>
    match store.tables.get? scope with
    | none => (.error (.rowNotFound id), store)
    | some table =>
      let store := store.settle scope (table.remove id)
      match table.get? id with
      | some row => (.ok row, store)
      | none => (.error (.rowNotFound id), store)

end Store

end RowSync
