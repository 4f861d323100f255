import RowSync.Proofs.Database.Reads

/-!
# Writers in Step with States

A writer takes up its clock from the latest time in its scope, and so from the mark of the state
that the database holds. What it writes is in step with the writes of the state, one row after the
other (`Holds.follows_applyAll`), as long as the database keeps what is written.
-/

namespace RowSync

/-- The database keeps what the mutation writes. -/
def Mutation.IsKept : Mutation → Prop
  | .upsert id payload => NulFree id ∧ payload.IsKept
  | .delete id => NulFree id

instance (mutation : Mutation) : Decidable mutation.IsKept :=
  match mutation with
  | .upsert id payload => inferInstanceAs (Decidable (NulFree id ∧ payload.IsKept))
  | .delete id => inferInstanceAs (Decidable (NulFree id))

namespace Database

variable {db : Database} {scope : Scope} {state : ScopeState} {now : Timestamp} {row : Row}
  {id : RowId} {α : Type}

/-- The writer of a scope whose state the database holds. -/
def Writer.ofState (scope : Scope) (now : Timestamp) (state : ScopeState) : Writer :=
  ⟨scope, ⟨state.mark⟩, now⟩

/-- What a session returns that tells the result and the writer. -/
def withWriter (scope : Scope) (now : Timestamp) (value : α) (state : ScopeState) : α × Writer :=
  (value, .ofState scope now state)

/-- A writer whose clock goes on assigns a timestamp, and leaves the database as it is. -/
theorem tick_of_ok {writer : Writer} {claim : Option Timestamp} {time : Timestamp}
    {clock : HybridClock} (h : writer.clock.tick (claim.getD writer.now) = .ok (time, clock))
    (db : Database) :
    writer.tick claim db = (.ok (time, ⟨writer.scope, clock, writer.now⟩), db) := by
  rw [Writer.tick, h]
  rfl

theorem tick_of_error {writer : Writer} {claim : Option Timestamp} {e : SyncError}
    (h : writer.clock.tick (claim.getD writer.now) = .error e) (db : Database) :
    writer.tick claim db = (.error (.refused e), db) := by
  rw [Writer.tick, h]
  rfl

/-- Writing a row with a timestamp ahead of the mark puts it in the state that is recorded. -/
theorem Records.writeRow {tables : Tables} (h : Records tables scope state)
    (hlt : state.mark < row.modifiedAt) (hle : row.modifiedAt ≤ maxTimestamp) :
    Records ((Statement.writeRow scope row).eval tables).2 scope (state.put row) := by
  have hrows : scopeRows (tables.syncRows.insert (.ofScope scope row.id) (.ofRow row)) scope =
      (state.rows.insert row.id row).mapValues StoredRow.ofRow := by
    rw [scopeRows_insert_self, h.rows, OrderedMap.insert_mapValues]
  exact ⟨hrows, h.sound.put hlt hle⟩

/-- Writing a row leaves the rows of all other scopes as they are. -/
theorem scopeRows_writeRow_of_ne {other : Scope} (hother : other ≠ scope) (tables : Tables)
    (row : Row) : scopeRows ((Statement.writeRow scope row).eval tables).2.syncRows other =
      scopeRows tables.syncRows other :=
  scopeRows_insert_of_ne hother tables.syncRows row.id (.ofRow row)

/-- A writer is started from the mark of the state that is recorded. -/
theorem Records.start_eq (h : Records db.tables scope state) (hhealthy : db.Healthy)
    (hscope : scope.IsKept) (now : Timestamp) :
    Writer.start scope now db = (.ok (.ofState scope now state), db) := by
  have hlock : run (.lock .exclusive scope) db = (.ok (), db) :=
    run_eq hhealthy (hasNul_lock.2 hscope)
  rw [Writer.start, bind_of_ok hlock, bind_of_ok (h.highWater_eq hhealthy hscope)]
  rfl

section Writes

variable (h : db.Holds scope state) (hscope : scope.IsKept)

include h hscope

/-- A writer starts from the mark. -/
theorem Holds.start_eq (now : Timestamp) :
    Writer.start scope now db = (.ok (.ofState scope now state), db) :=
  h.records.start_eq h.healthy hscope now

/-- Storing a row with a timestamp ahead of the mark puts it in the state. -/
theorem Holds.store_eq (writer : Writer) (hwriter : writer.scope = scope)
    (hlt : state.mark < row.modifiedAt) (hle : row.modifiedAt ≤ maxTimestamp) (hkept : row.IsKept) :
    ∃ db', writer.store row db = (.ok (row, writer), db') ∧ db'.Holds scope (state.put row) ∧
      SameElse scope db db' := by
  subst hwriter
  have hnul : (Statement.writeRow writer.scope row).hasNul = false :=
    hasNul_writeRow.2 ⟨hscope, hkept.id, hkept.payload.noNul⟩
  have hrun := run_eq h.healthy hnul
  have hrecords := h.records.writeRow hlt hle
  refine ⟨_, by rw [Writer.store, bind_of_ok hrun]; rfl, ?_, fun other hother =>
    scopeRows_writeRow_of_ne hother db.tables row⟩
  refine ⟨⟨h.healthy.isReachable, h.healthy.noFault⟩, hrecords.rows, fun {id found} hget => ?_,
    hrecords.sound⟩
  rw [ScopeState.get?_put] at hget
  split at hget
  · cases hget
    exact hkept
  · exact h.kept hget

/-- Storing a row with the next timestamp is in step with putting it. -/
theorem Holds.follows_write (claim : Option Timestamp) (make : Timestamp → Row)
    (hmake : ∀ time, (make time).modifiedAt = time) (hkept : ∀ time, (make time).IsKept) :
    Follows scope db (withWriter scope now)
      ((do
        let (time, ticked) ← (Writer.ofState scope now state).tick claim
        ticked.store (make time) : Session (Row × Writer)) db)
      (do
        let time ← state.nextTime (claim.getD now)
        return (make time, state.put (make time))) := by
  have hnext : state.nextTime (claim.getD now) =
      (HybridClock.tick ⟨state.mark⟩ (claim.getD now)).map Prod.fst := rfl
  rw [hnext]
  cases htick : HybridClock.tick ⟨state.mark⟩ (claim.getD now) with
  | error e =>
    have hticked : (Writer.ofState scope now state).tick claim db = (.error (.refused e), db) :=
      tick_of_error htick db
    rw [bind_of_error hticked]
    exact .error e h.healthy fun _ _ => rfl
  | ok ticked =>
    obtain ⟨time, clock⟩ := ticked
    obtain ⟨hlt, hle, hclock⟩ := HybridClock.tick_eq_ok htick
    have hticked : (Writer.ofState scope now state).tick claim db =
        (.ok (time, ⟨scope, clock, now⟩), db) :=
      tick_of_ok htick db
    obtain ⟨db', hstore, hholds, helse⟩ := h.store_eq hscope ⟨scope, clock, now⟩ rfl
      (by rwa [hmake]) (by rwa [hmake]) (hkept time)
    -- The clock shows the time of the row, which is the mark of the state after it.
    have hwriter : (⟨scope, clock, now⟩ : Writer) = .ofState scope now (state.put (make time)) := by
      rw [Writer.ofState, ScopeState.mark_put, hmake, ← hclock]
    rw [bind_of_ok hticked]
    simp only [hstore]
    rw [hwriter]
    exact .ok (make time) hholds helse

/-- Writing a payload stores a row that was created, also where one is there already. -/
theorem Holds.upsert_eq (now : Timestamp) (claim : Option Timestamp) (payload : Payload)
    (hid : NulFree id) : (Writer.ofState scope now state).upsert id payload claim db =
      (do
        let (time, ticked) ← (Writer.ofState scope now state).tick claim
        ticked.store (Row.create id payload time) : Session (Row × Writer)) db := by
  -- The time is assigned before the row is looked for, and looking for it does not fail.
  rw [Writer.upsert]
  cases htick : HybridClock.tick ⟨state.mark⟩ (claim.getD now) with
  | error e =>
    have hticked : (Writer.ofState scope now state).tick claim db = (.error (.refused e), db) :=
      tick_of_error htick db
    rw [bind_of_error hticked, bind_of_error hticked]
  | ok ticked =>
    have hticked : (Writer.ofState scope now state).tick claim db =
        (.ok (ticked.1, ⟨scope, ticked.2, now⟩), db) :=
      tick_of_ok htick db
    rw [bind_of_ok hticked, bind_of_ok hticked]
    simp only [bind_of_ok (h.getRow?_eq hscope hid)]
    cases hget : state.get? id with
    | none => rfl
    | some row =>
      -- Updating the row makes the same row as creating it.
      have hrow : row.id = id := h.sound.keyed hget
      subst hrow
      rfl

/-- Writing a payload that is kept is in step. -/
theorem Holds.follows_upsert (now : Timestamp) (claim : Option Timestamp) {payload : Payload}
    (hid : NulFree id) (hkept : payload.IsKept) :
    Follows scope db (withWriter scope now)
      ((Writer.ofState scope now state).upsert id payload claim db)
      (state.upsert (claim.getD now) id payload) := by
  rw [h.upsert_eq hscope now claim payload hid]
  exact h.follows_write hscope claim (Row.create id payload) (fun _ => rfl) fun _ => ⟨hid, hkept⟩

/-- Deleting a row is in step. -/
theorem Holds.follows_delete (now : Timestamp) (claim : Option Timestamp) (hid : NulFree id) :
    Follows scope db (withWriter scope now) ((Writer.ofState scope now state).delete id claim db)
      (state.delete (claim.getD now) id) := by
  have hget := h.getRow?_eq hscope hid
  rw [Writer.delete, ScopeState.delete]
  show Follows scope db (withWriter scope now) ((getRow? scope id >>= _) db) _
  rw [bind_of_ok hget]
  cases hget : state.get? id with
  | none => exact .error _ h.healthy fun _ _ => rfl
  | some row =>
    exact h.follows_write hscope claim row.entomb (fun _ => rfl)
      fun _ => ⟨(h.kept hget).id, (h.kept hget).payload⟩

theorem Holds.follows_apply {mutation : Mutation} (hkept : mutation.IsKept) :
    Follows scope db (withWriter scope now) ((Writer.ofState scope now state).apply mutation db)
      (state.apply now mutation) := by
  cases mutation with
  | upsert id payload => exact h.follows_upsert hscope now none hkept.1 hkept.2
  | delete id => exact h.follows_delete hscope now none hkept

end Writes

/-- Applying a batch that is kept is in step, by induction on the batch over all databases that hold
the state so far. -/
theorem Holds.follows_applyAll (h : db.Holds scope state) (hscope : scope.IsKept)
    {batch : List Mutation} (hkept : ∀ mutation ∈ batch, mutation.IsKept) :
    Follows scope db (withWriter scope now) ((Writer.ofState scope now state).applyAll batch db)
      (state.applyAll now batch) := by
  induction batch generalizing db state with
  | nil => exact .ok [] h fun _ _ => rfl
  | cons mutation rest ih =>
    refine (h.follows_apply hscope (hkept mutation (by simp))).bind fun row after db' hafter => ?_
    refine (ih hafter fun other hother => hkept other (by simp [hother])).bind
      fun rows last db'' hlast => ?_
    exact .ok (row :: rows) hlast fun _ _ => rfl

end Database

end RowSync
