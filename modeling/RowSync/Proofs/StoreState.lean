import Mathlib.Data.String.Basic
import RowSync.Proofs.TransactionState
import RowSync.Store
import RowSync.SyncTables

/-!
# The States of the Scopes of a Store

A store keeps a state for every scope (`Store.state`). Each operation on a sync table does to the
state of its scope what the operation on states does, gives the same result, and leaves all other
scopes as they are (`Follows`).
-/

namespace RowSync

/-- Row ids that were sorted stand in their order. -/
theorem pairwise_mergeSort_rowId (ids : List RowId) :
    (ids.mergeSort (· ≤ ·)).Pairwise fun a b : RowId => a ≤ b := by
  have htrans (a b c : RowId) (hab : decide (a ≤ b)) (hbc : decide (b ≤ c)) :
      decide (a ≤ c) := by
    rw [decide_eq_true_eq] at hab hbc ⊢
    exact le_trans hab hbc
  have htotal (a b : RowId) : decide (a ≤ b) || decide (b ≤ a) := by
    rw [Bool.or_eq_true, decide_eq_true_eq, decide_eq_true_eq]
    exact le_total a b
  exact (List.pairwise_mergeSort htrans htotal ids).imp of_decide_eq_true

/-- Only which ids are live decides what a replacement writes, not their order. -/
theorem replacementBatch_perm {live others : List RowId} (h : live.Perm others)
    (rows : List FlatRow) : replacementBatch live rows = replacementBatch others rows := by
  -- What is left out of either list is the same up to order, and is sorted before it is used.
  have hdropped (kept : List RowId) :
      (live.filter (· ∉ kept)).mergeSort (· ≤ ·) = (others.filter (· ∉ kept)).mergeSort (· ≤ ·) :=
    (((List.mergeSort_perm _ _).trans (h.filter _)).trans
      (List.mergeSort_perm _ _).symm).eq_of_pairwise (fun a b _ _ => le_antisymm)
      (pairwise_mergeSort_rowId _) (pairwise_mergeSort_rowId _)
  simp only [replacementBatch, hdropped]

namespace Store

variable {store : Store} {scope other : Scope} {table : Table} {limits : Limits}
  {now : Timestamp} {α β : Type}

/-- The state of a scope. -/
def state (store : Store) (scope : Scope) : ScopeState := (store.table scope).state

/-- The tables of all scopes are sound. -/
def Sound (store : Store) : Prop := ∀ scope, (store.table scope).Sound

theorem sound_empty : (∅ : Store).Sound := fun _ => Table.sound_empty

/-! ## Putting tables back -/

/-- A sound table without rows was never written. -/
theorem state_eq_initial (h : table.Sound) (hempty : table.rows = ∅) :
    table.state = ScopeState.initial := by
  have hmark : table.highWater = 0 := by
    rcases h.state.reached with hzero | ⟨id, row, hget, -⟩
    · exact hzero
    · -- There is no row that the mark could be the timestamp of.
      have hnone : table.rows.get? id = none := by rw [hempty]; rfl
      change table.rows.get? id = some row at hget
      rw [hnone] at hget
      cases hget
  rw [Table.state, hempty, hmark]
  rfl

/-- A table that was put back has its state in the store. -/
theorem state_settle_self (store : Store) (scope : Scope) (h : table.Sound) :
    (store.settle scope table).state scope = table.state := by
  rw [state, table_settle_self]
  split
  · -- A table without rows is dropped, and is found as one that was never written.
    rename_i hempty
    exact (state_eq_initial h (OrderedMap.isEmpty_iff.1 hempty)).symm
  · rfl

/-- Putting back a sound table keeps a store sound. -/
theorem Sound.settle (hstore : store.Sound) (scope : Scope) (h : table.Sound) :
    (store.settle scope table).Sound :=
  forall_table_settle (fun _ table => table.Sound) h (fun _ => Table.sound_empty)
    fun other _ => hstore other

/-! ## Operations in step with states -/

/-- The outcome of an operation on a scope of a store is that of an operation on its state. -/
structure Follows (store : Store) (scope : Scope) (actual : Except SyncError α × Store)
    (expected : Except SyncError (α × ScopeState)) : Prop where
  /-- The results are the same. -/
  result : actual.1 = expected.map Prod.fst
  /-- The scope has the state after the operation, or the one before if that failed. -/
  state : actual.2.state scope = (store.state scope).settle expected
  /-- All other scopes are as before. -/
  others : ∀ other, other ≠ scope → actual.2.state other = store.state other
  /-- The store stays sound. -/
  sound : actual.2.Sound

/-- An operation that reads is in step if it tells the same. -/
theorem Sound.follows_reading (h : store.Sound) {told : Except SyncError SyncReply}
    {expected : Except SyncError SyncReply} (htold : told = expected) :
    store.Follows scope (told, store) ((store.state scope).reading expected) := by
  subst htold
  cases told with
  | ok reply => exact ⟨rfl, rfl, fun _ _ => rfl, h⟩
  | error e => exact ⟨rfl, rfl, fun _ _ => rfl, h⟩

/-- A transaction in step with an operation makes an operation in step. -/
theorem Sound.follows_transact (h : store.Sound)
    {body : Transaction → Except SyncError (α × Transaction)}
    {expected : Except SyncError (α × ScopeState)}
    (hbody : Transaction.Follows now (body (.start (store.table scope) now)) expected) :
    store.Follows scope (store.transact scope now body) expected := by
  -- What becomes of the other scopes does not depend on how the transaction ends.
  have hothers : ∀ other, other ≠ scope →
      (store.transact scope now body).2.state other = store.state other :=
    fun other hother => congrArg Table.state (table_transact_of_ne hother)
  rw [transact] at hothers ⊢
  cases hactual : body (.start (store.table scope) now) with
  | ok ended =>
    rw [hactual] at hbody hothers
    cases hbody with
    | ok value hsound hnow =>
      refine ⟨rfl, ?_, hothers, h.settle scope hsound.commit⟩
      rw [state_settle_self store scope hsound.commit, hsound.state_commit]
      rfl
  | error e =>
    rw [hactual] at hbody hothers
    cases hbody
    -- The table that was taken out is put back as it was.
    refine ⟨rfl, ?_, hothers, h.settle scope (h scope)⟩
    rw [state_settle_self store scope (h scope)]
    rfl

/-- Operations stay in step behind the same check. -/
theorem Sound.follows_guarded (h : store.Sound) (check : Except SyncError Unit)
    (action : Store → Except SyncError α × Store) {expected : Except SyncError (α × ScopeState)}
    (haction : store.Follows scope (action store) expected) :
    store.Follows scope (store.guarded check action) (check >>= fun _ => expected) := by
  cases check with
  | ok _ => exact haction
  | error e => exact ⟨rfl, rfl, fun _ _ => rfl, h⟩

/-- An operation in step that succeeds has its result and leaves its state. -/
theorem Follows.eq_ok {actual : Except SyncError α × Store}
    {expected : Except SyncError (α × ScopeState)} (h : store.Follows scope actual expected)
    {value : α} (hok : actual.1 = .ok value) : expected = .ok (value, actual.2.state scope) := by
  have hstate := h.state
  rw [h.result] at hok
  cases expected with
  | ok told =>
    cases hok
    rw [hstate]
    rfl
  | error e => cases hok

theorem Follows.mapReply {actual : Except SyncError α × Store}
    {expected : Except SyncError (α × ScopeState)} (h : store.Follows scope actual expected)
    (reply : α → SyncReply) :
    store.Follows scope (mapReply reply actual) (ScopeState.writing reply expected) := by
  obtain ⟨hresult, hstate, hothers, hsound⟩ := h
  refine ⟨?_, ?_, hothers, hsound⟩
  · rw [RowSync.mapReply, hresult]
    cases expected <;> rfl
  · rw [RowSync.mapReply, hstate]
    cases expected <;> rfl

end Store

end RowSync
