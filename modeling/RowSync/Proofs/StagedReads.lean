import RowSync.Proofs.RegularTables
import RowSync.Proofs.StoreScopes

/-!
# Reading One's Own Writes

A transaction lays the rows that it staged over the committed ones, without an index of its own.
Everything that is read through it is what the table answers once the transaction is committed
(`Transaction.ReadsAs`), at any point of any sequence of writes, of which some may fail
(`Store.Constructed.reads_own_writes`). The rows changed after a time need no merging for this,
since all staged rows are ahead of all committed ones.
-/

namespace RowSync

/-- The ids of the live rows stand in their order. -/
theorem ScopeState.Sound.pairwise_liveRows {state : ScopeState} (h : state.Sound) :
    (state.liveRows.map Row.id).Pairwise (· < ·) := by
  refine List.pairwise_map.2 (List.Pairwise.filter _ ?_)
  refine OrderedMap.pairwise_values fun {a b x y} hx hy hlt => ?_
  have hxid : x.id = a := h.keyed hx
  have hyid : y.id = b := h.keyed hy
  rw [hxid, hyid]
  exact compare_lt_iff_lt.1 hlt

namespace Transaction

variable {txn : Transaction}

/-- The ids of live rows that the transaction lists are those of the state, in their order. -/
theorem Sound.liveIds_eq (h : txn.Sound) : txn.liveIds = txn.state.liveRows.map Row.id :=
  h.liveIds_perm.eq_of_pairwise (fun _ _ _ _ => le_antisymm) (pairwise_mergeSort_rowId _)
    (h.state.pairwise_liveRows.imp le_of_lt)

/-- What is read through the transaction is what the table answers. -/
structure ReadsAs (txn : Transaction) (table : Table) : Prop where
  /-- Rows are found alike, tombstones included. -/
  get? : ∀ id, txn.get? id = table.get? id
  /-- Live rows are found alike. -/
  getLive? : ∀ id, txn.getLive? id = table.getLive? id
  /-- The ids listed are those of the live rows, in their order. -/
  liveIds : txn.liveIds = table.liveRows.map Row.id
  /-- The marks are the same. -/
  highWater : txn.highWater = table.highWater
  /-- The changes after any time are the same, in the same order. -/
  changesAfter : ∀ time, txn.changesAfter time = table.rowsAfter time

/-- A sound transaction reads as the table that it is committed to. -/
theorem Sound.readsAs_commit (h : txn.Sound) : txn.ReadsAs txn.commit := by
  have hstate : txn.commit.state = txn.state := h.state_commit
  have hget (id : RowId) : txn.get? id = txn.commit.get? id := by
    rw [← h.get?_state, ← hstate]
    rfl
  refine ⟨hget, fun id => ?_, ?_, ?_, fun time => ?_⟩
  · rw [getLive?, Table.getLive?, hget]
  · rw [h.liveIds_eq, ← hstate]
    rfl
  · exact (congrArg ScopeState.mark hstate).symm
  · rw [h.changesAfter_eq, h.commit.rowsAfter_eq, hstate]

/-- A regular transaction reads as the table that it is committed to. -/
theorem Regular.readsAs_commit (h : txn.Regular) : txn.ReadsAs txn.commit := by
  obtain ⟨mark, time, -, -, hsound⟩ := h.sound
  -- With the clocks set back the transaction is sound, and reads alike but for the mark.
  have hreads := hsound.readsAs_commit
  rw [commit_withMarks hsound] at hreads
  exact ⟨hreads.get?, hreads.getLive?, hreads.liveIds, h.highWater_commit.symm, hreads.changesAfter⟩

end Transaction

namespace Store

variable {store : Store} {scope : Scope} {now : Timestamp} {txn : Transaction}

theorem Constructed.populated (h : Constructed store) : store.Populated := by
  induction h with
  | empty => exact populated_empty
  | upsert scope now id payload _ ih =>
    exact (ih.allOrNothing_upsert scope now id payload).populated
  | delete scope now id _ ih => exact (ih.allOrNothing_delete scope now id).populated
  | remove scope id _ ih => exact (ih.allOrNothing_remove scope id).populated
  | transact scope now body _ _ ih => exact (ih.allOrNothing_transact scope now body).populated

/-- A table without rows is one of which nothing is kept, nor its clock. -/
theorem Populated.table_eq_empty (h : store.Populated) (hrows : (store.table scope).rows = ∅) :
    store.table scope = ∅ := by
  rw [Store.table] at hrows ⊢
  cases hget : store.tables.get? scope with
  | none => rfl
  | some table =>
    rw [hget, Option.getD_some] at hrows
    have hkept : table.rows.isEmpty = false := h scope table hget
    rw [hrows] at hkept
    cases hkept

/-- A transaction that ends well leaves the table to which it is committed. If that has no rows,
then nothing was kept and nothing is staged. -/
theorem table_transact_of_ok (h : store.Populated) (hsound : txn.ReadsAs txn.commit)
    (htable : txn.table = store.table scope) {ε α : Type}
    {body : Transaction → Except ε (α × Transaction)} {value : α}
    (hbody : body (.start (store.table scope) now) = .ok (value, txn)) :
    (store.transact scope now body).2.table scope = txn.commit := by
  rw [transact, hbody]
  show (store.settle scope txn.commit).table scope = txn.commit
  rw [table_settle_self]
  split
  · rename_i hempty
    have hnone (id : RowId) : txn.staged.get? id = none ∧ txn.table.get? id = none := by
      have hget := hsound.get? id
      rw [Table.get?, OrderedMap.isEmpty_iff.1 hempty] at hget
      exact Option.or_eq_none_iff.1 hget
    have hstaged : txn.staged = ∅ := OrderedMap.ext_get? fun id => (hnone id).1
    have hrows : (store.table scope).rows = ∅ :=
      OrderedMap.ext_get? fun id => htable ▸ (hnone id).2
    rw [Transaction.commit, hstaged, htable, h.table_eq_empty hrows]
    rfl
  · rfl

/-- Whatever was written through a transaction on a table of a store that is only used by its
operations, and whatever of it failed, the transaction reads at any point as the table to which it
is committed, and this is the table that the store has if the transaction ends there. -/
theorem Constructed.reads_own_writes (hstore : Constructed store) (scope : Scope) (now : Timestamp)
    (hreach : (Transaction.start (store.table scope) now).Reaches txn) :
    txn.ReadsAs txn.commit ∧
      ∀ {ε α : Type} (body : Transaction → Except ε (α × Transaction)) (value : α),
        body (.start (store.table scope) now) = .ok (value, txn) →
          (store.transact scope now body).2.table scope = txn.commit := by
  have hregular : txn.Regular :=
    hreach.regular (Transaction.regular_start (hstore.regular scope) now)
  -- No write touches the table on which the transaction was opened.
  have htable : txn.table = store.table scope :=
    hreach.induction (motive := fun txn => txn.table = store.table scope) rfl
      fun _ _ h _ _ => h
  refine ⟨hregular.readsAs_commit, fun body value hbody => ?_⟩
  exact table_transact_of_ok hstore.populated hregular.readsAs_commit htable hbody

open SyncTables

/-- A store with one row, of which the clock is ahead since a later row was removed. -/
def sampleRemoved : Store :=
  let written := ((∅ : Store).upsert sampleScope 5000 "a" (sampleNote "first")).2
  ((written.upsert sampleScope 6000 "b" (sampleNote "other")).2.remove sampleScope "b").2

theorem constructed_sampleRemoved : sampleRemoved.Constructed :=
  .remove _ _ (.upsert _ _ _ _ (.upsert _ _ _ _ .empty))

/-- Write a row at a claimed time, fail to delete a row, delete the row written, write another. -/
def sampleWrites (txn : Transaction) : Transaction :=
  let txn := txn.settle (txn.upsert "a" (sampleNote "newer") (some 9000))
  let txn := txn.settle (txn.delete "ghost" none)
  let txn := txn.settle (txn.apply (.delete "a"))
  txn.settle (txn.upsert "c" (sampleNote "late") none)

theorem reaches_sampleWrites (txn : Transaction) : txn.Reaches (sampleWrites txn) :=
  .upsert _ _ _ (.apply _ (.delete _ _ (.upsert _ _ _ .refl)))

/-- A transaction that ends well after these writes. -/
def sampleBody (txn : Transaction) : Except SyncError (Unit × Transaction) :=
  .ok ((), sampleWrites txn)

/-- The mark of the removed row stays, and the tombstone is listed before the new row. -/
theorem reads_own_writes_sample :
    let txn := sampleWrites (.start (sampleRemoved.table sampleScope) 100)
    txn.ReadsAs ((sampleRemoved.transact sampleScope 100 sampleBody).2.table sampleScope) ∧
      txn.liveIds = ["c"] ∧ txn.highWater = 9002 ∧ txn.changesAfter 9000 =
        [⟨"a", sampleNote "newer", 9001, true⟩, ⟨"c", sampleNote "late", 9002, false⟩] := by
  have hreach := reaches_sampleWrites (.start (sampleRemoved.table sampleScope) 100)
  obtain ⟨hreads, htable⟩ := constructed_sampleRemoved.reads_own_writes sampleScope 100 hreach
  refine ⟨?_, hreads.liveIds.trans (by decide +kernel), by decide +kernel,
    (hreads.changesAfter 9000).trans (by decide +kernel)⟩
  rw [htable sampleBody () rfl]
  exact hreads

end Store

end RowSync
