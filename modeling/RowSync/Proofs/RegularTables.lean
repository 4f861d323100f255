import RowSync.Proofs.StoreState

/-!
# Tables with Removed Rows

Rows of local tables may be removed for good, after which the clock of a table may be ahead of all
rows that are left. Apart from that the table is sound: it is `Table.Regular`, that is sound with
its clock set back to the latest row. Nothing that is read but the mark depends on the clock, so
that what is known of the rows and the index of sound tables holds of regular ones.

A transaction is used by writing through it, where a write that fails leaves it as it was
(`Transaction.Reaches`). The tables of a store that is only used by its operations
(`Store.Constructed`) are regular (`Store.Constructed.regular`).
-/

namespace RowSync

/-! ## Removing a row -/

/-- Of some rows there is a latest timestamp, which is zero if there are none. -/
theorem exists_latest (rows : List Row) : ∃ top : Timestamp,
    (∀ row ∈ rows, row.modifiedAt ≤ top) ∧ (top = 0 ∨ ∃ row ∈ rows, row.modifiedAt = top) := by
  induction rows with
  | nil => exact ⟨0, by simp, .inl rfl⟩
  | cons first rest ih =>
    obtain ⟨top, hle, hreached⟩ := ih
    rcases UInt64.le_total top first.modifiedAt with hfirst | hfirst
    · refine ⟨first.modifiedAt, fun row hrow => ?_, .inr ⟨first, by simp, rfl⟩⟩
      rcases List.mem_cons.1 hrow with rfl | hrow
      · exact UInt64.le_refl _
      · exact UInt64.le_trans (hle row hrow) hfirst
    · refine ⟨top, fun row hrow => ?_, ?_⟩
      · rcases List.mem_cons.1 hrow with rfl | hrow
        · exact hfirst
        · exact hle row hrow
      · rcases hreached with hzero | ⟨row, hrow, htop⟩
        · exact .inl hzero
        · exact .inr ⟨row, by simp [hrow], htop⟩

/-- A sound state without one of its rows is sound, with a mark that may have to be set back. -/
theorem ScopeState.Sound.erase {state : ScopeState} (h : state.Sound) (id : RowId) :
    ∃ mark ≤ state.mark, (⟨state.rows.erase id, mark⟩ : ScopeState).Sound := by
  obtain ⟨top, hle, hreached⟩ := exists_latest (state.rows.erase id).values
  -- Every row that is left was there before.
  have hbefore {other : RowId} {row : Row} (hget : (state.rows.erase id).get? other = some row) :
      state.get? other = some row := by
    rw [OrderedMap.get?_erase] at hget
    split at hget
    · cases hget
    · exact hget
  have hmark : top ≤ state.mark := by
    rcases hreached with hzero | ⟨row, hrow, htop⟩
    · rw [hzero]
      exact UInt64.zero_le
    · obtain ⟨other, hget⟩ := OrderedMap.mem_values_iff.1 hrow
      rw [← htop]
      exact h.le_mark (hbefore hget)
  refine ⟨top, hmark, ?_⟩
  exact
    { keyed := fun hget => h.keyed (hbefore hget)
      positive := fun hget => h.positive (hbefore hget)
      le_mark := fun hget => hle _ (OrderedMap.mem_values_iff.2 ⟨_, hget⟩)
      distinct := fun hget hget' heq => h.distinct (hbefore hget) (hbefore hget') heq
      mark_le := UInt64.le_trans hmark h.mark_le
      reached := by
        rcases hreached with hzero | ⟨row, hrow, htop⟩
        · exact .inl hzero
        · obtain ⟨other, hget⟩ := OrderedMap.mem_values_iff.1 hrow
          exact .inr ⟨other, row, hget, htop⟩ }

namespace Table

variable {table : Table} {id : RowId}

/-- The table with its clock set. -/
def withMark (table : Table) (mark : Timestamp) : Table := { table with clock := ⟨mark⟩ }

/-- The table is sound once its clock is set back to the latest of its rows. -/
structure Regular (table : Table) : Prop where
  /-- With a mark that is not ahead of its own the table is sound. -/
  sound : ∃ mark ≤ table.highWater, (table.withMark mark).Sound
  /-- The mark is in range. -/
  highWater_le : table.highWater ≤ maxTimestamp

theorem Sound.regular (h : table.Sound) : table.Regular :=
  ⟨⟨table.highWater, UInt64.le_refl _, h⟩, h.state.mark_le⟩

/-- Whether the index is that of the rows does not depend on the clock. -/
theorem Indexed.withMark (h : table.Indexed) (mark : Timestamp) : (table.withMark mark).Indexed :=
  ⟨h.keyed, h.exact⟩

/-- Removing a row takes its entry out of the index. -/
theorem Indexed.remove (h : table.Indexed) (id : RowId) : (table.remove id).Indexed where
  keyed {other found} hfound := by
    rw [get?_remove] at hfound
    split at hfound
    · cases hfound
    · exact h.keyed hfound
  exact key := by
    have hindex : (table.remove id).index = table.indexWithout id := by
      rw [Table.remove, indexWithout]
      cases table.get? id <;> rfl
    rw [hindex, h.contains_indexWithout, get?_remove, h.exact]
    by_cases hid : key.id = id
    · simp [hid]
    · simp [hid]

theorem remove_withMark (table : Table) (mark : Timestamp) (id : RowId) :
    (table.withMark mark).remove id = (table.remove id).withMark mark := by
  have hget : (table.withMark mark).get? id = table.get? id := rfl
  rw [Table.remove, Table.remove, hget]
  cases table.get? id <;> rfl

/-- A sound table without one of its rows is sound, with a clock that may have to be set back. -/
theorem Sound.remove (h : table.Sound) (id : RowId) :
    ∃ mark ≤ table.highWater, ((table.remove id).withMark mark).Sound := by
  obtain ⟨mark, hmark, hstate⟩ := h.state.erase id
  have hrows : (table.remove id).rows = table.rows.erase id :=
    OrderedMap.ext_get? fun other =>
      (get?_remove table id other).trans (OrderedMap.get?_erase ..).symm
  refine ⟨mark, hmark, ?_, (h.indexed.remove id).withMark mark⟩
  show (⟨(table.remove id).rows, mark⟩ : ScopeState).Sound
  rw [hrows]
  exact hstate

/-- A regular table stays so when a row is removed, which leaves the clock as it is. -/
theorem Regular.remove (h : table.Regular) (id : RowId) : (table.remove id).Regular := by
  have hhighWater : (table.remove id).highWater = table.highWater := by
    rw [Table.remove]
    cases table.get? id <;> rfl
  obtain ⟨⟨mark, hmark, hsound⟩, hrange⟩ := h
  obtain ⟨latest, hlatest, hremoved⟩ := hsound.remove id
  rw [remove_withMark] at hremoved
  refine ⟨⟨latest, ?_, hremoved⟩, hhighWater ▸ hrange⟩
  rw [hhighWater]
  exact UInt64.le_trans hlatest hmark

/-- Writing rows does not depend on the clock, but for the clock itself. -/
theorem foldl_commitRow_withMark (table : Table) (mark : Timestamp) (rows : List Row) :
    ∃ mark', rows.foldl commitRow (table.withMark mark) =
      (rows.foldl commitRow table).withMark mark' := by
  induction rows generalizing table mark with
  | nil => exact ⟨mark, rfl⟩
  | cons row rest ih => exact ih (table.commitRow row) (max mark row.modifiedAt)

end Table

namespace Transaction

variable {txn after : Transaction} {table : Table} {row : Row} {id : RowId} {payload : Payload}
  {claim : Option Timestamp} {now : Timestamp}

/-! ## Writes through a transaction -/

/-- The transaction after a write, which stays as it is if the write fails. -/
def settle (txn : Transaction) (outcome : Except SyncError (Row × Transaction)) : Transaction :=
  match outcome with
  | .ok (_, after) => after
  | .error _ => txn

/-- The second transaction comes of the first one by writes, one after the other, of which some may
fail. -/
inductive Reaches (start : Transaction) : Transaction → Prop
  | refl : Reaches start start
  | upsert {txn : Transaction} (id : RowId) (payload : Payload) (claim : Option Timestamp)
    (hreach : Reaches start txn) : Reaches start (txn.settle (txn.upsert id payload claim))
  | delete {txn : Transaction} (id : RowId) (claim : Option Timestamp)
    (hreach : Reaches start txn) : Reaches start (txn.settle (txn.delete id claim))
  | apply {txn : Transaction} (mutation : Mutation)
    (hreach : Reaches start txn) : Reaches start (txn.settle (txn.apply mutation))

theorem reaches_of_upsert (h : txn.upsert id payload claim = .ok (row, after)) :
    txn.Reaches after := by
  have hreach : txn.Reaches (txn.settle (txn.upsert id payload claim)) :=
    .upsert id payload claim .refl
  rw [h] at hreach
  exact hreach

theorem reaches_of_delete (h : txn.delete id claim = .ok (row, after)) : txn.Reaches after := by
  have hreach : txn.Reaches (txn.settle (txn.delete id claim)) := .delete id claim .refl
  rw [h] at hreach
  exact hreach

/-- The timestamp that is assigned next is ahead of the clock, which then shows it. -/
theorem tick_eq_ok {time : Timestamp} (h : txn.tick claim = .ok (time, after)) :
    txn.highWater < time ∧ time ≤ maxTimestamp ∧ after = { txn with clock := ⟨time⟩ } := by
  obtain ⟨⟨assigned, clock⟩, htick, h⟩ := bind_eq_ok_iff.1 h
  cases h
  obtain ⟨hlt, hle, rfl⟩ := HybridClock.tick_eq_ok htick
  exact ⟨hlt, hle, rfl⟩

/-- Writing a payload stages a row at a timestamp ahead of the clock. -/
theorem upsert_eq_ok (h : txn.upsert id payload claim = .ok (row, after)) :
    txn.highWater < row.modifiedAt ∧ row.modifiedAt ≤ maxTimestamp ∧ after = txn.wrote row := by
  obtain ⟨⟨time, ticked⟩, htick, h⟩ := bind_eq_ok_iff.1 h
  obtain ⟨hlt, hle, rfl⟩ := tick_eq_ok htick
  -- Whether there was a row or not, the time of the one written is the time assigned.
  cases hget : txn.get? id with
  | none =>
    have hticked : get? { txn with clock := ⟨time⟩ } id = none := hget
    simp only [hticked] at h
    cases h
    exact ⟨hlt, hle, rfl⟩
  | some before =>
    have hticked : get? { txn with clock := ⟨time⟩ } id = some before := hget
    simp only [hticked] at h
    cases h
    exact ⟨hlt, hle, rfl⟩

/-- Deleting stages a tombstone at a timestamp ahead of the clock. -/
theorem delete_eq_ok (h : txn.delete id claim = .ok (row, after)) :
    txn.highWater < row.modifiedAt ∧ row.modifiedAt ≤ maxTimestamp ∧ after = txn.wrote row := by
  rw [delete] at h
  cases hget : txn.get? id with
  | none =>
    rw [hget] at h
    cases h
  | some before =>
    rw [hget] at h
    obtain ⟨⟨time, ticked⟩, htick, h⟩ := bind_eq_ok_iff.1 h
    obtain ⟨hlt, hle, rfl⟩ := tick_eq_ok htick
    cases h
    exact ⟨hlt, hle, rfl⟩

theorem apply_eq_ok {mutation : Mutation} (h : txn.apply mutation = .ok (row, after)) :
    txn.highWater < row.modifiedAt ∧ row.modifiedAt ≤ maxTimestamp ∧ after = txn.wrote row := by
  cases mutation with
  | upsert id payload => exact upsert_eq_ok h
  | delete id => exact delete_eq_ok h

/-- What holds of a transaction holds of every one that it reaches, if staging a row at a timestamp
ahead of the clock keeps it. -/
theorem Reaches.induction {start : Transaction} {motive : Transaction → Prop}
    (hreach : start.Reaches txn) (hstart : motive start)
    (hwrote : ∀ txn row, motive txn → txn.highWater < row.modifiedAt →
      row.modifiedAt ≤ maxTimestamp → motive (txn.wrote row)) : motive txn := by
  -- A write that fails leaves the transaction, one that succeeds stages its row.
  have hsettle {txn : Transaction} {outcome : Except SyncError (Row × Transaction)}
      (h : motive txn) (hok : ∀ {row after}, outcome = .ok (row, after) →
        txn.highWater < row.modifiedAt ∧ row.modifiedAt ≤ maxTimestamp ∧ after = txn.wrote row) :
      motive (txn.settle outcome) := by
    cases outcome with
    | error e => exact h
    | ok ended =>
      obtain ⟨row, after⟩ := ended
      obtain ⟨hlt, hle, rfl⟩ := hok rfl
      exact hwrote txn row h hlt hle
  induction hreach with
  | refl => exact hstart
  | upsert id payload claim _ ih => exact hsettle ih upsert_eq_ok
  | delete id claim _ ih => exact hsettle ih delete_eq_ok
  | apply mutation _ ih => exact hsettle ih apply_eq_ok

/-! ## Transactions on regular tables -/

/-- The transaction with the clock of its table and its own clock set. -/
def withMarks (txn : Transaction) (mark time : Timestamp) : Transaction :=
  { txn with table := txn.table.withMark mark, clock := ⟨time⟩ }

/-- The transaction is sound once its clocks are set back to the latest rows. -/
structure Regular (txn : Transaction) : Prop where
  /-- With clocks that are not ahead of those of the table and of its own the transaction is sound.
  -/
  sound : ∃ mark time, mark ≤ txn.table.highWater ∧ time ≤ txn.highWater ∧
    (txn.withMarks mark time).Sound
  /-- The clock is not behind the table. -/
  le_clock : txn.table.highWater ≤ txn.highWater
  /-- The clock is in range. -/
  clock_le : txn.highWater ≤ maxTimestamp
  /-- The clock is that of the table, or the timestamp of a staged row. -/
  reached : txn.table.highWater = txn.highWater ∨
    ∃ row ∈ txn.staged.values, row.modifiedAt = txn.highWater

theorem regular_start (h : table.Regular) (now : Timestamp) : (start table now).Regular where
  sound := by
    obtain ⟨mark, hmark, hsound⟩ := h.sound
    exact ⟨mark, mark, hmark, hmark, sound_start hsound now⟩
  le_clock := UInt64.le_refl _
  clock_le := h.highWater_le
  reached := .inl rfl

/-- Staging a row at a timestamp ahead of the clock keeps a transaction regular. -/
theorem Regular.wrote (h : txn.Regular) (hlt : txn.highWater < row.modifiedAt)
    (hle : row.modifiedAt ≤ maxTimestamp) : (txn.wrote row).Regular where
  sound := by
    obtain ⟨mark, time, hmark, htime, hsound⟩ := h.sound
    -- The clock shows the time of the row then, with or without having been set back.
    exact ⟨mark, row.modifiedAt, hmark, UInt64.le_refl _,
      hsound.wrote (UInt64.lt_of_le_of_lt htime hlt) hle⟩
  le_clock := UInt64.le_of_lt (UInt64.lt_of_le_of_lt h.le_clock hlt)
  clock_le := hle
  reached := by
    refine .inr ⟨row, OrderedMap.mem_values_iff.2 ⟨row.id, ?_⟩, rfl⟩
    simp [Transaction.wrote, stage]

/-- What is reached from a regular transaction by writes is regular. -/
theorem Reaches.regular {start : Transaction} (hreach : start.Reaches txn) (h : start.Regular) :
    txn.Regular :=
  hreach.induction h fun _ _ h hlt hle => h.wrote hlt hle

/-- The clock of the committed table is that of the transaction. -/
theorem Regular.highWater_commit (h : txn.Regular) : txn.commit.highWater = txn.highWater := by
  obtain ⟨mark, time, -, htime, hsound⟩ := h.sound
  have hcommit : txn.commit.highWater =
      txn.staged.values.foldl (fun latest row => max latest row.modifiedAt) txn.table.highWater :=
    congrArg ScopeState.mark (state_foldl_commitRow txn.table txn.staged.values)
  rw [hcommit]
  refine foldl_max_modifiedAt h.le_clock (fun row hrow => ?_) h.reached
  have hget := hsound.get?_state_of_staged (hsound.mem_staged_iff.1 hrow)
  exact UInt64.le_trans (hsound.state.le_mark hget) htime

/-- Setting back the clocks and committing is committing and setting back the clock. -/
theorem commit_withMarks {mark time : Timestamp} (hsound : (txn.withMarks mark time).Sound) :
    (txn.withMarks mark time).commit = txn.commit.withMark time := by
  obtain ⟨mark', hcommit⟩ := Table.foldl_commitRow_withMark txn.table mark txn.staged.values
  have hcommit' : (txn.withMarks mark time).commit = txn.commit.withMark mark' := hcommit
  -- The clock after the commit is that of the sound transaction.
  have hmark : mark' = time := by
    have hstate := hsound.state_commit
    rw [hcommit'] at hstate
    exact congrArg ScopeState.mark hstate
  rw [hcommit', hmark]

/-- A committed table is regular. -/
theorem Regular.commit (h : txn.Regular) : txn.commit.Regular := by
  obtain ⟨mark, time, -, htime, hsound⟩ := h.sound
  have hcommit : (txn.commit.withMark time).Sound := commit_withMarks hsound ▸ hsound.commit
  refine ⟨⟨time, ?_, hcommit⟩, ?_⟩
  · rw [h.highWater_commit]
    exact htime
  · rw [h.highWater_commit]
    exact h.clock_le

end Transaction

/-! ## Stores -/

namespace Store

variable {store : Store} {scope : Scope} {table : Table}

/-- The stores that are reached from the store without rows by writing, deleting and removing rows
and by transactions, of which the bodies do nothing to their transaction but write through it. -/
inductive Constructed : Store → Prop
  | empty : Constructed ∅
  | upsert {store : Store} (scope : Scope) (now : Timestamp) (id : RowId) (payload : Payload)
    (h : Constructed store) : Constructed (store.upsert scope now id payload).2
  | delete {store : Store} (scope : Scope) (now : Timestamp) (id : RowId)
    (h : Constructed store) : Constructed (store.delete scope now id).2
  | remove {store : Store} (scope : Scope) (id : RowId) (h : Constructed store) :
    Constructed (store.remove scope id).2
  | transact {store : Store} {ε α : Type} (scope : Scope) (now : Timestamp)
    (body : Transaction → Except ε (α × Transaction))
    (hbody : ∀ value txn, body (.start (store.table scope) now) = .ok (value, txn) →
      (Transaction.start (store.table scope) now).Reaches txn)
    (h : Constructed store) : Constructed (store.transact scope now body).2

/-- The tables of all scopes are regular. -/
def Regular (store : Store) : Prop := ∀ scope, (store.table scope).Regular

/-- Putting back a regular table keeps all tables regular. -/
theorem Regular.settle (h : store.Regular) (scope : Scope) (htable : table.Regular) :
    (store.settle scope table).Regular :=
  forall_table_settle (fun _ table => table.Regular) htable (fun _ => Table.sound_empty.regular)
    fun other _ => h other

/-- A transaction that is only written through keeps all tables regular. -/
theorem Regular.transact (h : store.Regular) {ε α : Type} {now : Timestamp}
    {body : Transaction → Except ε (α × Transaction)}
    (hbody : ∀ value txn, body (.start (store.table scope) now) = .ok (value, txn) →
      (Transaction.start (store.table scope) now).Reaches txn) :
    (store.transact scope now body).2.Regular := by
  rw [Store.transact]
  cases hended : body (.start (store.table scope) now) with
  | ok ended =>
    obtain ⟨value, txn⟩ := ended
    have hreach := hbody value txn hended
    exact h.settle scope (hreach.regular (Transaction.regular_start (h scope) now)).commit
  | error e => exact h.settle scope (h scope)

theorem Regular.guarded (h : store.Regular) {α : Type} {check : Except SyncError Unit}
    {action : Store → Except SyncError α × Store} (haction : (action store).2.Regular) :
    (store.guarded check action).2.Regular := by
  cases check with
  | ok _ => exact haction
  | error e => exact h

theorem Regular.remove (h : store.Regular) (scope : Scope) (id : RowId) :
    (store.remove scope id).2.Regular := by
  refine h.guarded ?_
  cases hget : store.tables.get? scope with
  | none => exact h
  | some table =>
    have htable : store.table scope = table := by rw [Store.table, hget, Option.getD_some]
    have hremoved := h.settle scope ((htable ▸ h scope).remove id)
    dsimp only
    cases table.get? id with
    | some row => exact hremoved
    | none => exact hremoved

/-- The tables of a store that is only used by its operations are regular. -/
theorem Constructed.regular (h : Constructed store) : store.Regular := by
  induction h with
  | empty => exact fun _ => Table.sound_empty.regular
  | upsert scope now id payload _ ih =>
    exact ih.guarded (ih.transact fun _ _ hended => Transaction.reaches_of_upsert hended)
  | delete scope now id _ ih =>
    exact ih.guarded (ih.transact fun _ _ hended => Transaction.reaches_of_delete hended)
  | remove scope id _ ih => exact ih.remove scope id
  | transact scope now body hbody _ ih => exact ih.transact hbody

end Store

end RowSync
