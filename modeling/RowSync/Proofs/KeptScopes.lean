import Mathlib.Data.Set.Card
import RowSync.Proofs.RegularTables
import RowSync.Proofs.StoreScopes

/-!
# Which Scopes a Store Keeps

A store keeps a scope (`Store.Keeps`) just if the scope has rows (`Store.HasRows`), be they
tombstones. This holds after any operations, one after the other (`Store.performAll`), since all of
them leave a populated store: a transaction that ends without rows is put back as nothing, and so is
a table of which the last row was removed. Rows of sync tables are never removed, so that a scope of
theirs stays for good once it has rows, and its clock with it.

Main statement: `Store.kept_scopes_have_rows`.
-/

namespace RowSync

/-- An operation on a store, by the type of what it returns. -/
inductive StoreOperation : Type → Type 1
  /-- Count the scopes that are kept. -/
  | scopeCount : StoreOperation Nat
  /-- Look at the table of a scope. -/
  | read {α : Type} (scope : Scope) (look : Table → α) : StoreOperation α
  /-- Get a live row. -/
  | get (scope : Scope) (id : RowId) : StoreOperation Row
  /-- List the live rows of a scope. -/
  | liveRows (scope : Scope) : StoreOperation (List Row)
  /-- Write a payload to a row. -/
  | upsert (scope : Scope) (id : RowId) (payload : Payload) : StoreOperation Row
  /-- Turn a row into a tombstone. -/
  | delete (scope : Scope) (id : RowId) : StoreOperation Row
  /-- Remove a row, of which not even a tombstone stays. -/
  | remove (scope : Scope) (id : RowId) : StoreOperation Row
  /-- Run a transaction with any body. -/
  | transact {α : Type} (scope : Scope) (body : Transaction → Except SyncError (α × Transaction)) :
    StoreOperation α

/-- Whether an operation only reads. -/
def StoreOperation.isRead {α : Type} : StoreOperation α → Bool
  | .scopeCount | .read _ _ | .get _ _ | .liveRows _ => true
  | .upsert _ _ _ | .delete _ _ | .remove _ _ | .transact _ _ => false

namespace Store

variable {store : Store} {scope other : Scope} {table : Table} {now : Timestamp} {id : RowId}
  {α : Type}

/-- Do an operation. -/
def perform (store : Store) (now : Timestamp) : StoreOperation α → Except SyncError α × Store
  | .scopeCount => (.ok store.scopeCount, store)
  | .read scope look => (.ok (look (store.table scope)), store)
  | .get scope id => (store.get scope id, store)
  | .liveRows scope => (.ok (store.liveRows scope), store)
  | .upsert scope id payload => store.upsert scope now id payload
  | .delete scope id => store.delete scope now id
  | .remove scope id => store.remove scope id
  | .transact scope body => store.transact scope now body

/-- Do operations one after the other, each at what the wall clock shows then. -/
def performAll (store : Store) (operations : List (Timestamp × (α : Type) × StoreOperation α)) :
    Store :=
  operations.foldl (fun store entry => (store.perform entry.1 entry.2.2).2) store

/-- The store keeps a table for the scope. -/
def Keeps (store : Store) (scope : Scope) : Prop := store.tables.contains scope

/-- The scope has a row, be it a tombstone. -/
def HasRows (store : Store) (scope : Scope) : Prop :=
  ∃ id row, (store.table scope).get? id = some row

/-! ## Operations one after the other -/

/-- An operation that reads leaves the store as it is. -/
theorem perform_of_isRead {operation : StoreOperation α} (h : operation.isRead) :
    (store.perform now operation).2 = store := by
  cases operation with
  | scopeCount | read | get | liveRows => rfl
  | upsert | delete | remove | transact => cases h

/-- Every operation is all or nothing. -/
theorem Populated.allOrNothing_perform (h : store.Populated) (now : Timestamp)
    (operation : StoreOperation α) : store.AllOrNothing (store.perform now operation) := by
  cases operation with
  | scopeCount | read | get | liveRows => exact h.allOrNothing_self _
  | upsert scope id payload => exact h.allOrNothing_upsert scope now id payload
  | delete scope id => exact h.allOrNothing_delete scope now id
  | remove scope id => exact h.allOrNothing_remove scope id
  | transact scope body => exact h.allOrNothing_transact scope now body

/-- Operations one after the other leave a populated store. -/
theorem Populated.performAll (h : store.Populated)
    (operations : List (Timestamp × (α : Type) × StoreOperation α)) :
    (store.performAll operations).Populated := by
  induction operations generalizing store with
  | nil => exact h
  | cons entry rest ih => exact ih (h.allOrNothing_perform entry.1 entry.2.2).populated

/-! ## Scopes that are kept -/

theorem isEmpty_rows_eq_false_iff :
    table.rows.isEmpty = false ↔ ∃ id row, table.get? id = some row := by
  rw [Bool.eq_false_iff, ne_eq, OrderedMap.isEmpty_iff]
  constructor
  · intro hne
    by_contra hnone
    refine hne (OrderedMap.ext_get? fun id => Option.eq_none_iff_forall_ne_some.2 fun row hget => ?_)
    exact hnone ⟨id, row, hget⟩
  · rintro ⟨id, row, hget⟩ hempty
    rw [Table.get?, hempty] at hget
    cases hget

/-- A populated store keeps just the scopes that have rows. -/
theorem Populated.keeps_iff (h : store.Populated) : store.Keeps scope ↔ store.HasRows scope := by
  rw [Keeps, HasRows, OrderedMap.contains_eq_true_iff, Store.table]
  constructor
  · rintro ⟨table, hget⟩
    rw [hget, Option.getD_some]
    exact isEmpty_rows_eq_false_iff.1 (h scope table hget)
  · rintro ⟨id, row, hrow⟩
    cases hget : store.tables.get? scope with
    | none =>
      rw [hget] at hrow
      cases hrow
    | some table => exact ⟨table, rfl⟩

/-- The scopes that are kept are counted once each. -/
theorem scopeCount_eq_ncard (store : Store) :
    store.scopeCount = {scope | store.Keeps scope}.ncard := by
  have hnodup : store.tables.keys.Nodup :=
    OrderedMap.pairwise_keys.imp fun hlt heq => by simp [heq] at hlt
  have hkeys : {scope | store.Keeps scope} = (store.tables.keys.toFinset : Set Scope) := by
    ext scope
    simp [Keeps, OrderedMap.mem_keys_iff, OrderedMap.contains_eq_true_iff]
  rw [hkeys, Set.ncard_coe_finset, List.toFinset_card_of_nodup hnodup]
  simp [scopeCount, OrderedMap.size, OrderedMap.keys]

theorem keeps_settle_iff : (store.settle scope table).Keeps other ↔
    if other = scope then ∃ id row, table.get? id = some row else store.Keeps other := by
  rw [Store.settle, Keeps, ← isEmpty_rows_eq_false_iff]
  cases hrows : table.rows.isEmpty <;> by_cases hother : other = scope <;>
    simp [OrderedMap.contains, Keeps, hother]

/-- Committing rows to a table leaves rows if there were any, or any are committed. -/
theorem exists_get?_foldl_commitRow_iff {rows : List Row} :
    (∃ id row, (rows.foldl Table.commitRow table).get? id = some row) ↔
      (∃ id row, table.get? id = some row) ∨ rows ≠ [] := by
  induction rows generalizing table with
  | nil => simp
  | cons first rest ih =>
    have hfirst : ∃ id row, (table.commitRow first).get? id = some row :=
      ⟨first.id, first, by simp⟩
    rw [List.foldl_cons, ih]
    exact ⟨fun _ => .inr (List.cons_ne_nil _ _), fun _ => .inl hfirst⟩

/-- A transaction that is only written through keeps its scope if that was kept, or if rows are
staged, and leaves all other scopes. Without staged rows it leaves the whole store. -/
theorem Populated.keeps_transact (h : store.Populated)
    {body : Transaction → Except SyncError (α × Transaction)} {value : α} {txn : Transaction}
    (hbody : body (.start (store.table scope) now) = .ok (value, txn))
    (hreach : (Transaction.start (store.table scope) now).Reaches txn) :
    (txn.staged = ∅ → (store.transact scope now body).2 = store) ∧
      ∀ other, (store.transact scope now body).2.Keeps other ↔
        store.Keeps other ∨ (other = scope ∧ txn.staged ≠ ∅) := by
  -- No write touches the table on which the transaction was opened.
  have htable : txn.table = store.table scope :=
    hreach.induction (motive := fun txn => txn.table = store.table scope) rfl
      fun _ _ htable _ _ => htable
  have hafter : (store.transact scope now body).2 = store.settle scope txn.commit := by
    rw [transact, hbody]
  rw [hafter]
  constructor
  · intro hstaged
    have hcommit : txn.commit = store.table scope := by
      rw [Transaction.commit, hstaged, htable]
      rfl
    rw [hcommit, h.settle_table scope]
  · intro other
    have hvalues : txn.staged.values ≠ [] ↔ txn.staged ≠ ∅ := not_congr (by
      rw [← OrderedMap.isEmpty_iff]
      simp [OrderedMap.values, OrderedMap.isEmpty])
    rw [keeps_settle_iff, Transaction.commit, exists_get?_foldl_commitRow_iff, hvalues, htable]
    by_cases hother : other = scope
    · subst hother
      simp [h.keeps_iff, HasRows]
    · simp [hother]

/-- A scope of which a row was removed is kept just if it has another row. -/
theorem keeps_remove_iff {row : Row} (hremove : (store.remove scope id).1 = .ok row) :
    (store.remove scope id).2.Keeps scope ↔
      ∃ other ≠ id, ∃ found, (store.table scope).get? other = some found := by
  cases hid : checkRowId id with
  | error e => simp [remove, guarded, hid] at hremove
  | ok _ =>
    cases hget : store.tables.get? scope with
    | none => simp [remove, guarded, hid, hget] at hremove
    | some table =>
      have htable : store.table scope = table := by rw [Store.table, hget, Option.getD_some]
      have hafter : (store.remove scope id).2 = store.settle scope (table.remove id) := by
        simp only [remove, guarded, hid, hget]
        cases table.get? id <;> rfl
      rw [hafter, htable, keeps_settle_iff, if_pos rfl]
      simp only [Table.get?_remove]
      grind

end Store

/-- A scope of sync tables that has rows keeps them, at the same time or a later one each, and its
mark does not go back. -/
theorem SyncTables.RunsTo.hasRows {limits : Limits} {store later : Store} {scope : Scope}
    (hreach : SyncTables.Reachable limits store) (hrun : SyncTables.RunsTo limits store later)
    (h : store.HasRows scope) : later.Keeps scope ∧ later.HasRows scope ∧
      (store.table scope).highWater ≤ (later.table scope).highWater := by
  have hsound : store.Sound := SyncTables.sound_of_reachable hreach
  have hgrows := hrun.growsTo hsound scope
  have hpopulated : later.Populated :=
    hrun.populated (SyncTables.RunsTo.populated hreach Store.populated_empty)
  obtain ⟨id, row, hget⟩ := h
  obtain ⟨row', hget', -⟩ := hgrows.exists_get? (hsound scope).state hget
  have hrows : later.HasRows scope := ⟨id, row', hget'⟩
  exact ⟨hpopulated.keeps_iff.2 hrows, hrows, hgrows.mark_le_mark⟩

/-- Of a scope that is not kept nothing is known, not even its clock. -/
theorem Store.table_of_not_keeps {store : Store} {scope : Scope} (h : ¬store.Keeps scope) :
    store.table scope = ∅ := by
  rw [Keeps, OrderedMap.contains_eq_true_iff, not_exists] at h
  rw [Store.table, Option.eq_none_iff_forall_ne_some.2 h, Option.getD_none]

/-- After any operations on a store, one after the other, the scopes that are kept are just those
that have rows, be they tombstones, and they are counted. No scope is added by an operation that
reads or fails, and none by a transaction that stages no row. If a row is removed, the scope is kept
as long as it has another row, and else it is forgotten with its clock. No call on sync tables
drops a scope that has rows, or takes its clock back. -/
theorem Store.kept_scopes_have_rows :
    (∀ operations : List (Timestamp × (α : Type) × StoreOperation α),
      let store := (∅ : Store).performAll operations
      (∀ scope, store.Keeps scope ↔ store.HasRows scope) ∧
      (∀ scope, ¬store.HasRows scope → store.table scope = ∅) ∧
      store.scopeCount = {scope | store.HasRows scope}.ncard ∧
      (∀ (now : Timestamp) (α : Type) (operation : StoreOperation α),
        (operation.isRead ∨ ∃ e, (store.perform now operation).1 = .error e) →
        (store.perform now operation).2 = store) ∧
      (∀ (now : Timestamp) (scope : Scope) (α : Type)
        (body : Transaction → Except SyncError (α × Transaction)) (value : α) (txn : Transaction),
        body (.start (store.table scope) now) = .ok (value, txn) →
        (Transaction.start (store.table scope) now).Reaches txn →
        (txn.staged = ∅ → (store.transact scope now body).2 = store) ∧
        ∀ other, (store.transact scope now body).2.Keeps other ↔
          store.Keeps other ∨ (other = scope ∧ txn.staged ≠ ∅)) ∧
      ∀ scope id row, (store.remove scope id).1 = .ok row →
        ((store.remove scope id).2.Keeps scope ↔
          ∃ other ≠ id, ∃ found, (store.table scope).get? other = some found)) ∧
    ∀ limits store later scope, SyncTables.Reachable limits store →
      SyncTables.RunsTo limits store later → store.HasRows scope →
      later.Keeps scope ∧ later.HasRows scope ∧
        (store.table scope).highWater ≤ (later.table scope).highWater := by
  refine ⟨fun operations => ?_, fun limits store later scope hreach hrun h => hrun.hasRows hreach h⟩
  intro store
  have h : store.Populated := populated_empty.performAll operations
  refine ⟨fun scope => h.keeps_iff, fun scope hrows => ?_, ?_, ?_, ?_, ?_⟩
  · exact table_of_not_keeps (mt h.keeps_iff.1 hrows)
  · simp only [scopeCount_eq_ncard, h.keeps_iff]
  · rintro now α operation (hread | ⟨e, he⟩)
    · exact perform_of_isRead hread
    · exact (h.allOrNothing_perform now operation).restored e he
  · intro now scope α body value txn hbody hreach
    exact h.keeps_transact hbody hreach
  · exact fun scope id row hremove => keeps_remove_iff hremove

/-- A row is written and removed again, after which its scope is forgotten. In between nothing is
kept of a scope that was only looked at, or in which a write failed, or a transaction did nothing. A
deleted row of a sync table stays as a tombstone, and its scope with it. -/
theorem Store.kept_scopes_have_rows_sample :
    let scope := SyncTables.sampleScope
    let other : Scope := ⟨"notes", "bob"⟩
    let store := (∅ : Store).performAll
      [(1000, ⟨Row, .upsert scope "a" (SyncTables.sampleNote "first")⟩)]
    let deleted := (SyncTables.perform {} SyncTables.sampleStore scope 3000 (.delete "a")).2
    store.Keeps scope ∧ store.scopeCount = 1 ∧
      (store.perform 1000 (.delete other "a")).2 = store ∧
      (store.transact other 1000 fun txn => (.ok ((), txn) : Except SyncError _)).2 = store ∧
      ¬(store.remove scope "a").2.Keeps scope ∧ (store.remove scope "a").2.table scope = ∅ ∧
      deleted.Keeps scope := by
  intro scope other store deleted
  obtain ⟨hkept, hsync⟩ := kept_scopes_have_rows
  obtain ⟨hkeeps, -, -, hsame, htransact, hremove⟩ :=
    hkept [(1000, ⟨Row, .upsert scope "a" (SyncTables.sampleNote "first")⟩)]
  have hrows : store.HasRows scope :=
    ⟨"a", ⟨"a", SyncTables.sampleNote "first", 1000, false⟩, by decide +kernel⟩
  have hremoved : ¬(store.remove scope "a").2.Keeps scope := by
    rw [hremove scope "a" ⟨"a", SyncTables.sampleNote "first", 1000, false⟩ (by decide +kernel)]
    rintro ⟨id, hid, row, hrow⟩
    have htable : store.table scope =
        (∅ : Table).commitRow ⟨"a", SyncTables.sampleNote "first", 1000, false⟩ := by
      decide +kernel
    rw [htable, Table.get?_commitRow, if_neg hid] at hrow
    cases hrow
  refine ⟨(hkeeps scope).2 hrows, by decide +kernel,
    hsame 1000 Row _ (.inr ⟨.rowNotFound "a", by decide +kernel⟩),
    (htransact 1000 other Unit _ () _ rfl .refl).1 rfl, hremoved, table_of_not_keeps hremoved, ?_⟩
  refine (hsync {} _ deleted scope SyncTables.reachable_sampleStore (.call scope 3000 _ .refl) ?_).1
  exact ⟨"a", ⟨"a", SyncTables.sampleNote "first", 1000, false⟩, by decide +kernel⟩

end RowSync
