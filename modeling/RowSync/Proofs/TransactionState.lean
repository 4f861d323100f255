import RowSync.Proofs.ScopeState.Writes
import RowSync.Proofs.TableState
import RowSync.Transaction

/-!
# The State of a Transaction

What a transaction sees is the state of its scope with the staged rows written over it
(`Transaction.state`). Its reads are those of this state, its writes are those of the state
(`follows_applyAll`), and committing it makes this the state of the table (`Sound.state_commit`).
-/

namespace RowSync

namespace Transaction

variable {txn : Transaction} {table : Table} {row : Row} {rows : List Row} {id : RowId}
  {now time : Timestamp}

/-- The state of the scope as the transaction sees it. -/
def state (txn : Transaction) : ScopeState :=
  ⟨OrderedMap.insertAll Row.id txn.table.rows txn.staged.values, txn.highWater⟩

/-- The committed rows, the staged rows and the clock of a transaction fit together. -/
structure Sound (txn : Transaction) : Prop where
  /-- The table is sound. -/
  table : txn.table.Sound
  /-- Staged rows stand under their own ids. -/
  keyed : ∀ {id row}, txn.staged.get? id = some row → row.id = id
  /-- Staged rows are ahead of all committed ones. -/
  ahead : ∀ {id row}, txn.staged.get? id = some row → txn.table.highWater < row.modifiedAt
  /-- The clock is not behind the table. -/
  le_clock : txn.table.highWater ≤ txn.highWater
  /-- What the transaction sees is sound. -/
  state : txn.state.Sound

/-! ## Staged rows -/

theorem Sound.nodup_staged (h : txn.Sound) : (txn.staged.values.map Row.id).Nodup :=
  OrderedMap.nodup_map_values h.keyed

/-- The staged rows are those found among them under their ids. -/
theorem Sound.mem_staged_iff (h : txn.Sound) :
    row ∈ txn.staged.values ↔ txn.staged.get? row.id = some row :=
  OrderedMap.mem_values_iff_of_keyed h.keyed

/-- A row of the state is a staged one, or a committed one that none is staged over. -/
theorem get?_state_of_keyed (hkeyed : ∀ {id row}, txn.staged.get? id = some row → row.id = id)
    (id : RowId) : txn.state.get? id = txn.get? id := by
  rw [get?]
  cases hstaged : txn.staged.get? id with
  | some row =>
    -- The staged rows have different ids, so none is written over by another.
    have hid : row.id = id := hkeyed hstaged
    subst hid
    exact OrderedMap.get?_insertAll_of_mem (OrderedMap.nodup_map_values hkeyed)
      ((OrderedMap.mem_values_iff_of_keyed hkeyed).2 hstaged)
  | none =>
    refine OrderedMap.get?_insertAll_of_ne fun row hrow hid => ?_
    rw [OrderedMap.mem_values_iff_of_keyed hkeyed, hid, hstaged] at hrow
    cases hrow

theorem Sound.get?_state (h : txn.Sound) (id : RowId) : txn.state.get? id = txn.get? id :=
  get?_state_of_keyed h.keyed id

/-- A staged row is one of the state. -/
theorem Sound.get?_state_of_staged (h : txn.Sound) (hstaged : txn.staged.get? id = some row) :
    txn.state.get? id = some row := by
  rw [h.get?_state, get?, hstaged, Option.some_or]

/-- A row that the transaction sees is staged, or it is committed and none is staged over it. -/
theorem get?_eq_some_iff : txn.get? id = some row ↔
    txn.staged.get? id = some row ∨
      txn.staged.contains id = false ∧ txn.table.get? id = some row := by
  rw [get?, OrderedMap.contains]
  cases txn.staged.get? id <;> simp

/-! ## Reads -/

/-- The changes that the transaction lists are those of the state. -/
theorem Sound.changesAfter_eq (h : txn.Sound) (time : Timestamp) :
    txn.changesAfter time = txn.state.changesAfter time := by
  refine h.state.eq_changesAfter ?_ fun row => ?_
  · have hdistinct : txn.staged.values.Pairwise fun a b => a.modifiedAt ≠ b.modifiedAt := by
      refine OrderedMap.pairwise_values fun {a b x y} hx hy hlt heq => ?_
      have hab : a = b :=
        h.state.distinct (h.get?_state_of_staged hx) (h.get?_state_of_staged hy) heq
      simp [hab] at hlt
    refine LogOrdered.append (h.table.logOrdered_rowsAfter.filter _)
      (logOrdered_inChangeOrder (hdistinct.filter _)) fun row hrow other hother => ?_
    -- Committed rows are behind the mark of the table, staged ones ahead of it.
    rw [List.mem_filter, h.table.mem_rowsAfter_iff] at hrow
    rw [mem_inChangeOrder, List.mem_filter, h.mem_staged_iff] at hother
    exact UInt64.lt_of_le_of_lt (h.table.state.le_mark hrow.1.1) (h.ahead hother.1)
  · -- A row of the state is staged, or committed with none staged over it; each list has its part.
    rw [changesAfter, List.mem_append, mem_inChangeOrder, List.mem_filter, List.mem_filter,
      h.table.mem_rowsAfter_iff, h.mem_staged_iff, h.get?_state, get?_eq_some_iff]
    simp only [Bool.not_eq_true', decide_eq_true_eq]
    grind

/-- A live row of the state is staged, or it is committed and none is staged over it. -/
theorem Sound.mem_liveRows_iff (h : txn.Sound) : row ∈ txn.state.liveRows ↔
    row ∈ txn.table.liveRows.filter (fun row => !txn.staged.contains row.id) ∨
      row ∈ txn.staged.values.filter Row.isLive := by
  have hcommitted : row ∈ txn.table.liveRows ↔
      txn.table.get? row.id = some row ∧ row.deleted = false :=
    h.table.state.mem_liveRows_iff
  rw [List.mem_filter, List.mem_filter, hcommitted, h.state.mem_liveRows_iff, h.mem_staged_iff,
    h.get?_state, get?_eq_some_iff]
  simp only [Bool.not_eq_true', Row.isLive]
  grind

/-- The ids of live rows that the transaction lists are those of the state. -/
theorem Sound.liveIds_perm (h : txn.Sound) :
    txn.liveIds.Perm (txn.state.liveRows.map Row.id) := by
  -- Neither list names an id twice, so that it is enough that they name the same ids.
  refine (List.mergeSort_perm _ _).trans ((List.perm_ext_iff_of_nodup ?_ ?_).2 fun id => ?_)
  · rw [List.map_append, List.nodup_append]
    refine ⟨?_, ?_, ?_⟩
    · exact h.table.state.nodup_liveRows.sublist (List.filter_sublist.map Row.id)
    · exact h.nodup_staged.sublist (List.filter_sublist.map Row.id)
    · -- A committed row is left out if one with its id is staged.
      intro id hid other hother heq
      obtain ⟨row, hrow, rfl⟩ := List.mem_map.1 hid
      obtain ⟨later, hlater, rfl⟩ := List.mem_map.1 hother
      rw [List.mem_filter, h.mem_staged_iff, ← heq] at hlater
      have hnone := (List.mem_filter.1 hrow).2
      simp [OrderedMap.contains, hlater.1] at hnone
  · exact h.state.nodup_liveRows
  · rw [List.map_append, List.mem_append]
    constructor
    · rintro (hid | hid)
      · obtain ⟨row, hrow, rfl⟩ := List.mem_map.1 hid
        exact List.mem_map_of_mem (h.mem_liveRows_iff.2 (.inl hrow))
      · obtain ⟨row, hrow, rfl⟩ := List.mem_map.1 hid
        exact List.mem_map_of_mem (h.mem_liveRows_iff.2 (.inr hrow))
    · intro hid
      obtain ⟨row, hrow, rfl⟩ := List.mem_map.1 hid
      exact (h.mem_liveRows_iff.1 hrow).imp List.mem_map_of_mem List.mem_map_of_mem

/-! ## Writes -/

/-- The transaction after a row was staged at the latest time. -/
def wrote (txn : Transaction) (row : Row) : Transaction :=
  stage { txn with clock := ⟨row.modifiedAt⟩ } row

/-- A row that is staged is written over the rows of the state. -/
theorem Sound.get?_wrote (h : txn.Sound) (row : Row) (id : RowId) :
    (txn.wrote row).get? id = if id = row.id then some row else txn.state.get? id := by
  rw [wrote, get?_stage, h.get?_state]
  rfl

/-- Staged rows stand under their own ids after one more was staged. -/
theorem Sound.keyed_wrote (h : txn.Sound) {row found : Row}
    (hget : (txn.wrote row).staged.get? id = some found) :
    found.id = id ∧ (found = row ∨ txn.staged.get? id = some found) := by
  change (txn.staged.insert row.id row).get? id = some found at hget
  rw [OrderedMap.get?_insert] at hget
  split at hget
  · cases hget
    exact ⟨Eq.symm ‹_›, .inl rfl⟩
  · exact ⟨h.keyed hget, .inr hget⟩

/-- Staging a row puts it in the state. -/
theorem Sound.state_wrote (h : txn.Sound) (row : Row) :
    (txn.wrote row).state = txn.state.put row := by
  have hkeyed {id : RowId} {found : Row} (hget : (txn.wrote row).staged.get? id = some found) :
      found.id = id :=
    (h.keyed_wrote hget).1
  -- Both maps find the same rows, though one is made by inserting the staged rows again.
  have hrows : (txn.wrote row).state.rows = (txn.state.put row).rows := by
    refine OrderedMap.ext_get? fun id => ?_
    show (txn.wrote row).state.get? id = (txn.state.put row).get? id
    rw [get?_state_of_keyed hkeyed, h.get?_wrote, ScopeState.get?_put]
  calc (txn.wrote row).state
      = ⟨(txn.wrote row).state.rows, row.modifiedAt⟩ := rfl
    _ = txn.state.put row := by rw [hrows]; rfl

/-- Staging a row at a time ahead of the clock keeps a transaction sound. -/
theorem Sound.wrote (h : txn.Sound) (hlt : txn.highWater < row.modifiedAt)
    (hle : row.modifiedAt ≤ maxTimestamp) : (txn.wrote row).Sound where
  table := h.table
  keyed hget := (h.keyed_wrote hget).1
  ahead hget := by
    rcases (h.keyed_wrote hget).2 with rfl | hget
    · exact UInt64.lt_of_le_of_lt h.le_clock hlt
    · exact h.ahead hget
  le_clock := UInt64.le_of_lt (UInt64.lt_of_le_of_lt h.le_clock hlt)
  state := by
    rw [h.state_wrote]
    exact h.state.put hlt hle

/-! ## Transactions in step with a state -/

/-- The outcome of a computation in a transaction is that of an operation on the state: both give
the same result and the transaction has the state after it, or both fail alike. -/
inductive Follows (now : Timestamp) {α : Type} :
    Except SyncError (α × Transaction) → Except SyncError (α × ScopeState) → Prop
  | ok (value : α) {txn : Transaction} (hsound : txn.Sound) (hnow : txn.now = now) :
    Follows now (.ok (value, txn)) (.ok (value, txn.state))
  | error (e : SyncError) : Follows now (.error e) (.error e)

/-- Computations in step may be followed by computations in step. -/
theorem Follows.bind {α β : Type} {first : Except SyncError (α × Transaction)}
    {first' : Except SyncError (α × ScopeState)}
    {next : α × Transaction → Except SyncError (β × Transaction)}
    {next' : α × ScopeState → Except SyncError (β × ScopeState)} (h : Follows now first first')
    (hnext : ∀ value txn, txn.Sound → txn.now = now →
      Follows now (next (value, txn)) (next' (value, txn.state))) :
    Follows now (first >>= next) (first' >>= next') := by
  cases h with
  | ok value hsound hnow => exact hnext value _ hsound hnow
  | error e => exact .error e

/-- Computations stay in step after the same check. -/
theorem Follows.check {α β : Type} {outcome : Except SyncError α}
    {next : α → Except SyncError (β × Transaction)}
    {next' : α → Except SyncError (β × ScopeState)}
    (hnext : ∀ value, outcome = .ok value → Follows now (next value) (next' value)) :
    Follows now (outcome >>= next) (outcome >>= next') := by
  cases outcome with
  | ok value => exact hnext value rfl
  | error e => exact .error e

theorem Follows.eq_error_iff {α : Type} {outcome : Except SyncError (α × Transaction)}
    {expected : Except SyncError (α × ScopeState)} (h : Follows now outcome expected)
    {e : SyncError} : outcome = .error e ↔ expected = .error e := by
  cases h with
  | ok value hsound hnow => simp
  | error cause => simp

/-- Staging a row with the next timestamp is in step with putting it. -/
theorem Sound.follows_write (h : txn.Sound) (claim : Option Timestamp)
    (make : Timestamp → Row) (hmake : ∀ time, (make time).modifiedAt = time) :
    Follows txn.now
      (do
        let (time, ticked) ← txn.tick claim
        return (make time, ticked.stage (make time)))
      (do
        let time ← txn.state.nextTime (claim.getD txn.now)
        return (make time, txn.state.put (make time))) := by
  have hnext : txn.state.nextTime (claim.getD txn.now) =
      (txn.clock.tick (claim.getD txn.now)).map Prod.fst := rfl
  rw [hnext, tick]
  cases htick : txn.clock.tick (claim.getD txn.now) with
  | error e => exact .error e
  | ok ticked =>
    obtain ⟨time, clock⟩ := ticked
    obtain ⟨hlt, hle, hclock⟩ := HybridClock.tick_eq_ok htick
    -- The clock shows the time that was assigned, which is the time of the row.
    have hwrote : stage { txn with clock } (make time) = txn.wrote (make time) := by
      rw [Transaction.wrote, hmake, ← hclock]
    have hsound : (txn.wrote (make time)).Sound := h.wrote (by rwa [hmake]) (by rwa [hmake])
    show Follows txn.now (.ok (make time, stage { txn with clock } (make time)))
      (.ok (make time, txn.state.put (make time)))
    rw [hwrote, ← h.state_wrote]
    exact .ok _ hsound rfl

/-- Writing a payload is in step. -/
theorem Sound.follows_upsert (h : txn.Sound) (id : RowId) (payload : Payload)
    (claim : Option Timestamp) :
    Follows txn.now (txn.upsert id payload claim)
      (txn.state.upsert (claim.getD txn.now) id payload) := by
  have hupsert : txn.upsert id payload claim = (do
      let (time, ticked) ← txn.tick claim
      return (Row.create id payload time, ticked.stage (.create id payload time))) := by
    rw [upsert, tick]
    cases txn.clock.tick (claim.getD txn.now) with
    | error e => rfl
    | ok ticked =>
      have hticked : get? { txn with clock := ticked.2 } id = txn.get? id := rfl
      simp only [bind, Except.bind, pure, Except.pure, hticked]
      cases hget : txn.get? id with
      | none => rfl
      | some row =>
        -- Updating a row that is there makes the same row as creating one.
        have hid : row.id = id := h.state.keyed ((h.get?_state id).trans hget)
        rw [← hid]
        rfl
  rw [hupsert]
  exact h.follows_write claim (Row.create id payload) fun _ => rfl

theorem Sound.follows_delete (h : txn.Sound) (id : RowId) (claim : Option Timestamp) :
    Follows txn.now (txn.delete id claim) (txn.state.delete (claim.getD txn.now) id) := by
  rw [delete, ScopeState.delete, h.get?_state]
  cases txn.get? id with
  | none => exact .error _
  | some row => exact h.follows_write claim row.entomb fun _ => rfl

theorem Sound.follows_apply (h : txn.Sound) (mutation : Mutation) :
    Follows txn.now (txn.apply mutation) (txn.state.apply txn.now mutation) := by
  cases mutation with
  | upsert id payload => exact h.follows_upsert id payload none
  | delete id => exact h.follows_delete id none

/-- Applying a batch is in step. -/
theorem Sound.follows_applyAll (h : txn.Sound) (batch : List Mutation) :
    Follows txn.now (txn.applyAll batch) (txn.state.applyAll txn.now batch) := by
  -- The wall clock shows the same time to all mutations of the batch.
  induction batch generalizing txn with
  | nil => exact .ok [] h rfl
  | cons mutation rest ih =>
    refine (h.follows_apply mutation).bind fun row txn' hsound hnow => ?_
    rw [← hnow]
    refine (ih hsound).bind fun rows txn'' hsound' hnow' => ?_
    exact .ok _ hsound' hnow'

/-! ## Opening and committing -/

theorem sound_start (h : table.Sound) (now : Timestamp) : (start table now).Sound where
  table := h
  keyed hget := by cases hget
  ahead hget := by cases hget
  le_clock := UInt64.le_refl _
  state := h.state

/-- Writing rows to a table puts them in its rows, and takes note of their timestamps. -/
theorem state_foldl_commitRow (table : Table) (rows : List Row) :
    (rows.foldl Table.commitRow table).state =
      ⟨OrderedMap.insertAll Row.id table.rows rows,
        rows.foldl (fun latest row => max latest row.modifiedAt) table.highWater⟩ := by
  induction rows generalizing table with
  | nil => rfl
  | cons row rest ih => exact ih (table.commitRow row)

/-- A committed table has the state that the transaction saw. -/
theorem Sound.state_commit (h : txn.Sound) : txn.commit.state = txn.state := by
  have hmark : txn.staged.values.foldl (fun latest row => max latest row.modifiedAt)
      txn.table.highWater = txn.highWater := by
    have hget {row : Row} (hrow : row ∈ txn.staged.values) : txn.state.get? row.id = some row :=
      h.get?_state_of_staged (h.mem_staged_iff.1 hrow)
    -- The clock of the table after the commit is the latest of its own and the staged times.
    refine foldl_max_modifiedAt h.le_clock (fun row hrow => h.state.le_mark (hget hrow)) ?_
    by_cases heq : txn.table.highWater = txn.highWater
    · exact .inl heq
    · -- The clock is ahead of the table, so the row that it was last used for is staged.
      right
      rcases h.state.reached with hzero | ⟨id, row, hrow, htime⟩
      · refine absurd (UInt64.le_antisymm h.le_clock ?_) heq
        have hzero' : txn.highWater = 0 := hzero
        rw [hzero']
        exact UInt64.zero_le
      · rw [h.get?_state, get?_eq_some_iff] at hrow
        rcases hrow with hstaged | ⟨-, hcommitted⟩
        · exact ⟨row, OrderedMap.mem_values_iff.2 ⟨id, hstaged⟩, htime⟩
        · have hle : row.modifiedAt ≤ txn.table.highWater := h.table.state.le_mark hcommitted
          rw [htime] at hle
          exact absurd (UInt64.le_antisymm h.le_clock hle) heq
  rw [commit, state_foldl_commitRow, hmark]
  rfl

theorem Sound.commit (h : txn.Sound) : txn.commit.Sound where
  state := by
    rw [h.state_commit]
    exact h.state
  indexed := h.table.indexed.commitRows _

end Transaction

end RowSync
