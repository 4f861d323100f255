import RowSync.Proofs.ScopeState.Sound

/-!
# Writes to the State of a Scope

What the operations that write can do, said once for each of them. A single write puts one row
(`apply_eq_ok`), a batch puts a row for every mutation in the order of the batch
(`applyAll_eq_ok`), and a call puts fresh rows or leaves the state as it is (`growsTo_after`).
So every call keeps a state sound (`Sound.of_growsTo`).
-/

namespace RowSync

/-- A sequence of two steps succeeds if both do. -/
theorem bind_eq_ok_iff {ε α β : Type} {first : Except ε α} {second : α → Except ε β} {result : β} :
    first >>= second = .ok result ↔ ∃ value, first = .ok value ∧ second value = .ok result := by
  cases first with
  | ok value => simp [bind, Except.bind]
  | error e => simp [bind, Except.bind]

/-- Of a sequence that fails the first part fails, or it succeeds and what comes after it fails. -/
theorem bind_eq_error_iff {ε α β : Type} {first : Except ε α} {next : α → Except ε β} {e : ε} :
    (first >>= next) = .error e ↔
      first = .error e ∨ ∃ value, first = .ok value ∧ next value = .error e := by
  cases first <;> simp [bind, Except.bind]

theorem map_eq_ok_iff {ε α β : Type} {first : Except ε α} {f : α → β} {result : β} :
    first.map f = .ok result ↔ ∃ value, first = .ok value ∧ f value = result := by
  cases first <;> simp [Except.map]

theorem map_eq_error_iff {ε α β : Type} {first : Except ε α} {f : α → β} {e : ε} :
    first.map f = .error e ↔ first = .error e := by
  cases first <;> simp [Except.map]

theorem mapError_eq_ok_iff {ε ε' α : Type} {outcome : Except ε α} {f : ε → ε'} {result : α} :
    outcome.mapError f = .ok result ↔ outcome = .ok result := by
  cases outcome <;> simp [Except.mapError]

/-- The content of a row: its payload, and whether it is a tombstone. -/
def Row.content (row : Row) : Payload × Bool := (row.payload, row.deleted)

/-- What a mutation makes of the content of its row. A row that does not exist has none, and
deleting does not give it one. -/
def Mutation.effect (content : Option (Payload × Bool)) : Mutation → Option (Payload × Bool)
  | .upsert _ payload => some (payload, false)
  | .delete _ => content.map fun kept => (kept.1, true)

namespace ScopeState

variable {limits : Limits} {now seed time : Timestamp} {state state' : ScopeState} {row : Row}
  {rows : List Row} {id : RowId} {payload : Payload} {mutation : Mutation} {batch : List Mutation}

/-! ## Timestamps -/

/-- A state whose mark is not the largest timestamp has a next one. -/
theorem nextTime_of_lt (h : state.mark < maxTimestamp) :
    state.nextTime seed = .ok (HybridClock.next ⟨state.mark⟩ seed) := by
  rw [nextTime, HybridClock.tick_of_lt h]
  rfl

theorem nextTime_of_le (h : maxTimestamp ≤ state.mark) :
    state.nextTime seed = .error (.timestampsExhausted state.mark) := by
  rw [nextTime, HybridClock.tick_of_le h]
  rfl

/-- The next timestamp is ahead of the mark and in range. -/
theorem nextTime_eq_ok (h : state.nextTime seed = .ok time) :
    state.mark < time ∧ time ≤ maxTimestamp := by
  obtain ⟨⟨assigned, clock⟩, htick, rfl⟩ := map_eq_ok_iff.1 h
  obtain ⟨hlt, hle, -⟩ := HybridClock.tick_eq_ok htick
  exact ⟨hlt, hle⟩

/-! ## Single writes -/

/-- A payload that is written makes a live row. -/
theorem upsert_eq_ok (h : state.upsert seed id payload = .ok (row, state')) :
    ∃ time, state.nextTime seed = .ok time ∧ row = .create id payload time ∧
      state' = state.put row := by
  obtain ⟨time, htime, hrow⟩ := bind_eq_ok_iff.1 h
  cases hrow
  exact ⟨time, htime, rfl, rfl⟩

/-- A row that is deleted makes a tombstone. -/
theorem delete_eq_ok (h : state.delete seed id = .ok (row, state')) :
    ∃ before time, state.get? id = some before ∧ state.nextTime seed = .ok time ∧
      row = before.entomb time ∧ state' = state.put row := by
  unfold delete at h
  split at h
  · cases h
  · rename_i before hbefore
    obtain ⟨time, htime, hrow⟩ := bind_eq_ok_iff.1 h
    cases hrow
    exact ⟨before, time, hbefore, htime, rfl, rfl⟩

/-- A mutation that is applied puts its row, with the content that it makes of it, at a timestamp
ahead of the mark. -/
theorem apply_eq_ok (hsound : state.Sound) (h : state.apply now mutation = .ok (row, state')) :
    row.id = mutation.rowId ∧ state' = state.put row ∧ state.mark < row.modifiedAt ∧
      row.modifiedAt ≤ maxTimestamp ∧
      some row.content = mutation.effect ((state.get? mutation.rowId).map Row.content) := by
  cases mutation with
  | upsert id payload =>
    obtain ⟨time, htime, rfl, rfl⟩ := upsert_eq_ok h
    obtain ⟨hlt, hle⟩ := nextTime_eq_ok htime
    exact ⟨rfl, rfl, hlt, hle, rfl⟩
  | delete id =>
    obtain ⟨before, time, hbefore, htime, rfl, rfl⟩ := delete_eq_ok h
    obtain ⟨hlt, hle⟩ := nextTime_eq_ok htime
    -- A tombstone takes the id of the row before, which is the one it was found under.
    have hid : before.id = id := hsound.keyed hbefore
    refine ⟨hid, rfl, hlt, hle, ?_⟩
    simp only [Mutation.rowId, hbefore, Option.map_some, Mutation.effect]
    rfl

/-! ## Batches -/

/-- A batch that is applied puts one row for every mutation, in order and with increasing
timestamps. -/
theorem applyAll_eq_ok (hsound : state.Sound) (h : state.applyAll now batch = .ok (rows, state')) :
    rows.map Row.id = batch.map Mutation.rowId ∧ state' = state.putAll rows ∧
      state.Fresh rows := by
  -- The rows put by the rest are fresh after the first one, and so together with it.
  induction batch generalizing state rows with
  | nil =>
    cases h
    exact ⟨rfl, rfl, fresh_nil⟩
  | cons mutation rest ih =>
    obtain ⟨⟨row, middle⟩, hfirst, h⟩ := bind_eq_ok_iff.1 h
    obtain ⟨⟨others, last⟩, hrest, h⟩ := bind_eq_ok_iff.1 h
    cases h
    obtain ⟨hid, rfl, hlt, hle, -⟩ := apply_eq_ok hsound hfirst
    obtain ⟨hids, rfl, hfresh⟩ := ih (hsound.put hlt hle) hrest
    refine ⟨?_, rfl, fresh_cons.2 ⟨hlt, hle, hfresh⟩⟩
    rw [List.map_cons, List.map_cons, hid, hids]

/-- Applying a batch with its report is applying it, and then telling the rows that were written. -/
theorem applyBatch_eq_map (state : ScopeState) (now : Timestamp) (batch : List Mutation) :
    state.applyBatch now batch =
      (state.applyAll now batch).map fun told => (written told.1 told.2, told.2) := by
  rw [applyBatch]
  cases state.applyAll now batch <;> rfl

/-- After a batch the content of a row is what its own mutations make of it, one after the other. -/
theorem content_applyAll (hsound : state.Sound)
    (h : state.applyAll now batch = .ok (rows, state')) (id : RowId) :
    (state'.get? id).map Row.content =
      (batch.filter fun mutation => mutation.rowId = id).foldl Mutation.effect
        ((state.get? id).map Row.content) := by
  induction batch generalizing state rows with
  | nil =>
    cases h
    rfl
  | cons mutation rest ih =>
    obtain ⟨⟨row, middle⟩, hfirst, h⟩ := bind_eq_ok_iff.1 h
    obtain ⟨⟨others, last⟩, hrest, h⟩ := bind_eq_ok_iff.1 h
    cases h
    obtain ⟨hid, rfl, hlt, hle, hcontent⟩ := apply_eq_ok hsound hfirst
    rw [ih (hsound.put hlt hle) hrest, get?_put, List.filter_cons]
    -- The first mutation changes the content of its own row, and of no other.
    by_cases hsame : mutation.rowId = id
    · subst hsame
      simp only [hid, ↓reduceIte, decide_true, List.foldl_cons, Option.map_some, hcontent]
    · have hother : ¬id = row.id := fun heq => hsame (hid.symm.trans heq.symm)
      simp only [hother, hsame, ↓reduceIte, decide_false, Bool.false_eq_true]

/-! ## Calls -/

/-- The second state comes of the first one by writing fresh rows, or none. -/
def GrowsTo (state state' : ScopeState) : Prop :=
  ∃ rows, state.Fresh rows ∧ state' = state.putAll rows

theorem growsTo_self : state.GrowsTo state := ⟨[], fresh_nil, rfl⟩

theorem growsTo_of_upsert (h : state.upsert seed id payload = .ok (row, state')) :
    state.GrowsTo state' := by
  obtain ⟨time, htime, rfl, rfl⟩ := upsert_eq_ok h
  obtain ⟨hlt, hle⟩ := nextTime_eq_ok htime
  exact ⟨[.create id payload time], fresh_cons.2 ⟨hlt, hle, fresh_nil⟩, rfl⟩

theorem growsTo_of_delete (h : state.delete seed id = .ok (row, state')) :
    state.GrowsTo state' := by
  obtain ⟨before, time, -, htime, rfl, rfl⟩ := delete_eq_ok h
  obtain ⟨hlt, hle⟩ := nextTime_eq_ok htime
  exact ⟨[before.entomb time], fresh_cons.2 ⟨hlt, hle, fresh_nil⟩, rfl⟩

/-- A batch is applied by writing fresh rows. -/
theorem growsTo_of_applyAll (hsound : state.Sound)
    (h : state.applyAll now batch = .ok (rows, state')) : state.GrowsTo state' := by
  obtain ⟨-, hstate, hfresh⟩ := applyAll_eq_ok hsound h
  exact ⟨rows, hfresh, hstate⟩

/-- An exchange writes fresh rows for the mutations that it accepts. -/
theorem growsTo_of_sync (hsound : state.Sound) {base : Timestamp} {report : SyncReport}
    (h : state.sync limits now base batch = .ok (report, state')) : state.GrowsTo state' := by
  obtain ⟨_, -, h⟩ := bind_eq_ok_iff.1 h
  obtain ⟨⟨rows, last⟩, happly, h⟩ := bind_eq_ok_iff.1 h
  cases h
  exact growsTo_of_applyAll hsound happly

theorem growsTo_of_applyBatch (hsound : state.Sound) {report : SyncReport}
    (h : state.applyBatch now batch = .ok (report, state')) : state.GrowsTo state' := by
  obtain ⟨⟨rows, last⟩, happly, h⟩ := bind_eq_ok_iff.1 h
  cases h
  exact growsTo_of_applyAll hsound happly

/-- A write with a claimed edit time writes what the write itself does, or nothing. -/
theorem growsTo_of_edit {claim : Timestamp} {outcome : EditOutcome}
    {write : ScopeState → Except SyncError (Row × ScopeState)}
    (hwrite : ∀ {row state'}, write state = .ok (row, state') → state.GrowsTo state')
    (h : state.edit limits now id claim write = .ok (outcome, state')) : state.GrowsTo state' := by
  obtain ⟨_, -, h⟩ := bind_eq_ok_iff.1 h
  obtain ⟨_, -, h⟩ := bind_eq_ok_iff.1 h
  split at h
  · cases h
    exact growsTo_self
  · -- No row is in the way, so the write decides.
    obtain ⟨⟨row, last⟩, happlied, h⟩ := bind_eq_ok_iff.1 h
    cases h
    exact hwrite happlied

/-- A row is in the way of an edit unless it was written at the claimed time or before. -/
theorem filter_claim_lt (row : Row) (claim : Timestamp) :
    (some row).filter (fun row => claim < row.modifiedAt) =
      if row.modifiedAt ≤ claim then none else some row := by
  rw [Option.filter_some]
  by_cases hle : row.modifiedAt ≤ claim
  · have hlt : ¬claim < row.modifiedAt := UInt64.not_lt.2 hle
    simp [hle, hlt]
  · have hlt : claim < row.modifiedAt := UInt64.not_le.1 hle
    simp [hle, hlt]

/-- A call that reads leaves the state as it is. -/
theorem reading_eq_ok {told : Except SyncError SyncReply} {reply : SyncReply}
    (h : state.reading told = .ok (reply, state')) : told = .ok reply ∧ state' = state := by
  obtain ⟨value, htold, heq⟩ := map_eq_ok_iff.1 h
  cases heq
  exact ⟨htold, rfl⟩

/-- A call that writes replies what its operation tells. -/
theorem writing_eq_ok {α : Type} {told : α → SyncReply} {reply : SyncReply}
    {outcome : Except SyncError (α × ScopeState)}
    (h : writing told outcome = .ok (reply, state')) :
    ∃ value, outcome = .ok (value, state') ∧ reply = told value := by
  obtain ⟨⟨value, last⟩, houtcome, heq⟩ := map_eq_ok_iff.1 h
  cases heq
  exact ⟨value, houtcome, rfl⟩

/-- A call that succeeds writes fresh rows, or none. -/
theorem growsTo_of_perform (hsound : state.Sound) {call : SyncCall} {reply : SyncReply}
    (h : state.perform limits now call = .ok (reply, state')) : state.GrowsTo state' := by
  -- The checks before an operation do not touch the state.
  cases call with
  | rows | row | snapshot | changesSince =>
    obtain ⟨-, rfl⟩ := reading_eq_ok h
    exact growsTo_self
  | put id payload =>
    obtain ⟨_, hput, -⟩ := writing_eq_ok h
    obtain ⟨_, -, hput⟩ := bind_eq_ok_iff.1 hput
    exact growsTo_of_upsert hput
  | delete id =>
    obtain ⟨_, hdelete, -⟩ := writing_eq_ok h
    obtain ⟨_, -, hdelete⟩ := bind_eq_ok_iff.1 hdelete
    exact growsTo_of_delete hdelete
  | sync base batch =>
    obtain ⟨_, hsync, -⟩ := writing_eq_ok h
    exact growsTo_of_sync hsound hsync
  | push batch =>
    obtain ⟨_, hpush, -⟩ := writing_eq_ok h
    obtain ⟨_, -, hpush⟩ := bind_eq_ok_iff.1 hpush
    exact growsTo_of_applyBatch hsound hpush
  | replace rows =>
    obtain ⟨_, hreplace, -⟩ := writing_eq_ok h
    obtain ⟨_, -, hreplace⟩ := bind_eq_ok_iff.1 hreplace
    obtain ⟨batch, -, hreplace⟩ := bind_eq_ok_iff.1 hreplace
    exact growsTo_of_applyBatch hsound hreplace
  | putIfRecent id payload claim =>
    obtain ⟨_, hedit, -⟩ := writing_eq_ok h
    exact growsTo_of_edit growsTo_of_upsert hedit
  | deleteIfRecent id claim =>
    obtain ⟨_, hedit, -⟩ := writing_eq_ok h
    exact growsTo_of_edit growsTo_of_delete hedit

/-- After any call fresh rows were written, or none. -/
theorem growsTo_after (hsound : state.Sound) (call : SyncCall) :
    state.GrowsTo (state.after limits now call) := by
  rw [after]
  cases h : state.perform limits now call with
  | ok told => exact growsTo_of_perform hsound h
  | error e => exact growsTo_self

theorem Sound.of_growsTo (hsound : state.Sound) (h : state.GrowsTo state') : state'.Sound := by
  obtain ⟨rows, hfresh, rfl⟩ := h
  exact hsound.putAll hfresh

theorem GrowsTo.mark_le_mark (h : state.GrowsTo state') : state.mark ≤ state'.mark := by
  obtain ⟨rows, hfresh, rfl⟩ := h
  exact hfresh.mark_le_mark

theorem GrowsTo.trans {state'' : ScopeState} (h : state.GrowsTo state')
    (h' : state'.GrowsTo state'') : state.GrowsTo state'' := by
  obtain ⟨rows, hfresh, rfl⟩ := h
  obtain ⟨later, hlater, rfl⟩ := h'
  exact ⟨rows ++ later, fresh_append.2 ⟨hfresh, hlater⟩, (putAll_append _ _ _).symm⟩

/-- A row of a state that has grown was there before or is ahead of the mark before. -/
theorem GrowsTo.get?_cases (h : state.GrowsTo state') (id : RowId) :
    state'.get? id = state.get? id ∨
      ∃ row, state'.get? id = some row ∧ state.mark < row.modifiedAt := by
  obtain ⟨rows, hfresh, rfl⟩ := h
  by_cases hid : id ∈ rows.map Row.id
  · obtain ⟨row, hmem, -, hget⟩ := exists_get?_putAll state hid
    exact .inr ⟨row, hget, hfresh.ahead row hmem⟩
  · exact .inl (get?_putAll_of_notMem hid)

/-- A row stays when a state grows, as it was or written again later. -/
theorem GrowsTo.exists_get? (h : state.GrowsTo state') (hsound : state.Sound)
    (hget : state.get? id = some row) :
    ∃ row', state'.get? id = some row' ∧ (row' = row ∨ row.modifiedAt < row'.modifiedAt) := by
  rcases h.get?_cases id with hsame | ⟨row', hget', hlt⟩
  · exact ⟨row, hsame.trans hget, .inl rfl⟩
  · exact ⟨row', hget', .inr (UInt64.lt_of_le_of_lt (hsound.le_mark hget) hlt)⟩

end ScopeState

end RowSync
