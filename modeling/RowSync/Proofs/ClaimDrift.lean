import RowSync.Proofs.Seeds
import RowSync.Proofs.Timestamps

/-!
# Claims and the Drift of Marks

Clients cannot drag a scope far ahead of the wall clock. Where the limits bound how far a claimed
edit time may be ahead, the mark of a scope is never beyond the latest time that the wall clock
showed by more than that bound and one for every timestamp that the scope assigned, whatever times
were claimed (`claims_drift_bounded`). Each call is a step of at most as many timestamps as rows
that it writes (`SyncTables.assigned_rowsWritten`, `Database.Records.assigned_rowsWritten`).
-/

namespace RowSync

variable {limits : Limits} {scope other : Scope} {now skew : Timestamp} {bound latest : Nat}
  {history : List Row}

/-! ## Calls -/

/-- The rows that a call on a store writes get their timestamps from bounded seeds. -/
theorem SyncTables.assigned_rowsWritten {store : Store} (h : store.Sound)
    (hskew : limits.maxSkew = some skew) (hbound : now.toNat + skew.toNat ≤ bound)
    (call : SyncCall) :
    (store.state scope).AssignedUpTo bound (rowsWritten limits store scope now call) := by
  cases hscript : call.script? with
  | none =>
    rw [rowsWritten, hscript]
    trivial
  | some script =>
    rcases perform_script_cases h hscript limits scope now with
      ⟨e, -, hrows, -⟩ | ⟨reply, txn, -, hcheck, hrun, -⟩
    · rw [hrows]
      trivial
    · have hseeds := call.seededUpTo_script hskew hcheck hscript hbound
      exact (Transaction.sound_start (h scope) now).assigned_run_logged hseeds hrun

/-- The rows that a call on a database writes get their timestamps from bounded seeds. -/
theorem Database.Records.assigned_rowsWritten {db : Database} {state : ScopeState}
    (h : Records db.tables scope state) (hskew : limits.maxSkew = some skew)
    (hbound : now.toNat + skew.toNat ≤ bound) (call : SyncCall) :
    state.AssignedUpTo bound (rowsWritten limits db scope now call) := by
  cases hscript : call.script? with
  | none =>
    rw [rowsWritten, hscript]
    trivial
  | some script =>
    rw [rowsWritten, hscript]
    dsimp only
    cases hlogged : performLogged limits scope now call script db with
    | mk outcome db' =>
      -- A call that fails writes nothing, so that it remains to look at one that succeeds.
      cases outcome with
      | error e => trivial
      | ok told =>
        obtain ⟨reply, rows⟩ := told
        obtain ⟨_, checked, hchecked, hrun⟩ := bind_eq_ok hlogged
        obtain ⟨hcheck, rfl⟩ := check_eq_ok hchecked
        have hseeds := call.seededUpTo_script hskew hcheck hscript hbound
        rcases h.writing_cases now (fun writer =>
            script.logged.write scope writer >>= fun told => pure told.1) with
          ⟨e, after, hfails, -⟩ | ⟨value, started, ended, after, hok, hstarted, hbody, -, -⟩
        · cases hrun.symm.trans hfails
        · obtain ⟨⟨told, last⟩, written, hwrite, hbody⟩ := bind_eq_ok hbody
          cases hbody
          cases hrun.symm.trans hok
          exact Records.assigned_script (hstarted.symm ▸ h) hseeds hwrite

/-! ## Runs up to a time of the wall clock -/

/-- The stores that are reached by calls on any scopes while the wall clock shows no time after a
latest one, with the rows that were written to one of the scopes. -/
inductive SyncTables.RunUntil (limits : Limits) (scope : Scope) (latest : Nat) :
    Store → List Row → Prop
  | start : RunUntil limits scope latest ∅ []
  | call {store : Store} {history : List Row} {now : Timestamp} (hnow : now.toNat ≤ latest)
    (call : SyncCall) (hrun : RunUntil limits scope latest store history) :
    RunUntil limits scope latest (perform limits store scope now call).2
      (history ++ rowsWritten limits store scope now call)
  | elsewhere {store : Store} {history : List Row} {other : Scope} (hother : other ≠ scope)
    {now : Timestamp} (hnow : now.toNat ≤ latest) (call : SyncCall)
    (hrun : RunUntil limits scope latest store history) :
    RunUntil limits scope latest (perform limits store other now call).2 history

/-- Of the time of the wall clock nothing is asked in a run otherwise. -/
theorem SyncTables.RunUntil.run {store : Store}
    (hrun : RunUntil limits scope latest store history) :
    Run limits scope store history := by
  induction hrun with
  | start => exact .start
  | call hnow call _ ih => exact .call _ call ih
  | elsewhere hother hnow call _ ih => exact .elsewhere hother _ call ih

/-- The databases that are reached by calls on any scopes while the wall clock shows no time after a
latest one, with the rows that were written to one of the scopes, whatever happens to the database
in between. -/
inductive Database.RunUntil (limits : Limits) (scope : Scope) (latest : Nat) :
    Database → List Row → Prop
  | start {db : Database} (hempty : db.tables.syncRows = ∅) : RunUntil limits scope latest db []
  | call {db : Database} {history : List Row} {now : Timestamp} (hnow : now.toNat ≤ latest)
    (call : SyncCall) (hrun : RunUntil limits scope latest db history) :
    RunUntil limits scope latest (performSync limits scope now call db).2
      (history ++ rowsWritten limits db scope now call)
  | elsewhere {db : Database} {history : List Row} {other : Scope} (hother : other ≠ scope)
    {now : Timestamp} (hnow : now.toNat ≤ latest) (call : SyncCall)
    (hrun : RunUntil limits scope latest db history) :
    RunUntil limits scope latest (performSync limits other now call db).2 history
  | onLocal {db : Database} {history : List Row} (other : Scope) (call : LocalCall)
    (hrun : RunUntil limits scope latest db history) :
    RunUntil limits scope latest (performLocal other call db).2 history
  | disturb {db : Database} {history : List Row} (isReachable : Bool) (fault : Option Fault)
    (hrun : RunUntil limits scope latest db history) :
    RunUntil limits scope latest { db with isReachable, fault } history

/-- Of the time of the wall clock nothing is asked in a run otherwise. -/
theorem Database.RunUntil.run {db : Database} (hrun : RunUntil limits scope latest db history) :
    Run limits scope db history := by
  induction hrun with
  | start hempty => exact .start hempty
  | call hnow call _ ih => exact .call _ call ih
  | elsewhere hother hnow call _ ih => exact .elsewhere hother _ call ih
  | onLocal other call _ ih => exact .onLocal other call ih
  | disturb isReachable fault _ ih => exact .disturb isReachable fault ih

/-! ## The drift of a mark -/

/-- A step that writes rows with bounded seeds takes the mark ahead by their number at most. -/
theorem ScopeState.mark_putAll_le {state : ScopeState} {rows : List Row}
    (hassigned : state.AssignedUpTo bound rows)
    (hmark : state.mark.toNat ≤ bound + history.length) :
    (state.putAll rows).mark.toNat ≤ bound + (history ++ rows).length := by
  rw [List.length_append]
  exact hassigned.mark_le hmark

/-- Over a run on a store the mark is not beyond the bound on claims by more than the number of
timestamps that were assigned. -/
theorem SyncTables.RunUntil.mark_le {store : Store}
    (hrun : RunUntil limits scope latest store history) (hskew : limits.maxSkew = some skew) :
    (store.state scope).mark.toNat ≤ latest + skew.toNat + history.length := by
  induction hrun with
  | start => exact Nat.zero_le _
  | call hnow call hrun ih =>
    have hsound := sound_of_reachable hrun.run.reachable
    rw [(state_perform hsound call).2]
    exact ScopeState.mark_putAll_le
      (assigned_rowsWritten hsound hskew (Nat.add_le_add_right hnow _) call) ih
  | elsewhere hother hnow call hrun ih =>
    rw [state_perform_of_ne (sound_of_reachable hrun.run.reachable) hother call]
    exact ih

/-- What is recorded of a scope is its mark, also after a step that leaves the rows of the scope. -/
theorem Database.Records.mark_of_scopeRows_eq {db db' : Database} {state : ScopeState}
    (h : Records db.tables scope state)
    (heq : scopeRows db'.tables.syncRows scope = scopeRows db.tables.syncRows scope) :
    db'.mark scope = db.mark scope := by
  have hafter : Records db'.tables scope state := h.of_scopeRows_eq heq
  rw [hafter.mark_eq, h.mark_eq]

/-- Over a run on a database the mark is not beyond the bound on claims by more than the number of
timestamps that were assigned. -/
theorem Database.RunUntil.mark_le {db : Database}
    (hrun : RunUntil limits scope latest db history) (hskew : limits.maxSkew = some skew) :
    (db.mark scope).toNat ≤ latest + skew.toNat + history.length := by
  induction hrun with
  | start hempty =>
    rw [(records_initial hempty scope).mark_eq]
    exact Nat.zero_le _
  | call hnow call hrun ih =>
    obtain ⟨state, hrecords, -⟩ := hrun.run.records
    obtain ⟨-, hafter, -⟩ := hrecords.performSync limits _ call
    rw [hrecords.mark_eq] at ih
    rw [Records.mark_eq hafter]
    exact ScopeState.mark_putAll_le
      (hrecords.assigned_rowsWritten hskew (Nat.add_le_add_right hnow _) call) ih
  | elsewhere hother hnow call hrun ih =>
    obtain ⟨state, hrecords, -⟩ := hrun.run.records
    -- The call is one on the state of its own scope, and leaves that of all others.
    obtain ⟨state', hother'⟩ := hrun.run.sound _
    obtain ⟨-, -, helse⟩ := hother'.performSync limits _ call
    rwa [hrecords.mark_of_scopeRows_eq (helse scope hother.symm)]
  | onLocal other call hrun ih =>
    obtain ⟨state, hrecords, -⟩ := hrun.run.records
    have hrows := keeps_syncRows_performLocal other call
    rwa [hrecords.mark_of_scopeRows_eq (congrArg (scopeRows · scope) (hrows _))]
  | disturb isReachable fault _ ih => exact ih

/-- Claims cannot drag a scope far ahead of the wall clock. If the limits let a claimed edit time be
ahead by some skew, then after any run in which the wall clock shows no time after a latest one, in
a store and in a database, the mark of a scope and the timestamp of every row in it are beyond the
latest time by no more than the skew and the number of timestamps that the scope has assigned. -/
theorem claims_drift_bounded (hskew : limits.maxSkew = some skew) (scope : Scope) (latest : Nat) :
    (∀ store history, SyncTables.RunUntil limits scope latest store history →
      (store.table scope).highWater.toNat ≤ latest + skew.toNat + history.length ∧
      ∀ time ∈ store.storedTimes scope, time.toNat ≤ latest + skew.toNat + history.length) ∧
    ∀ db history, Database.RunUntil limits scope latest db history →
      (db.mark scope).toNat ≤ latest + skew.toNat + history.length ∧
      ∀ time ∈ db.storedTimes scope, time.toNat ≤ latest + skew.toNat + history.length := by
  -- No row is ahead of the mark, so that the mark bounds them all.
  have hstored {state : ScopeState} {most : Nat} (hsound : state.Sound)
      (hmark : state.mark.toNat ≤ most) :
      ∀ time ∈ state.rows.values.map Row.modifiedAt, time.toNat ≤ most := by
    intro time htime
    obtain ⟨row, hrow, rfl⟩ := List.mem_map.1 htime
    have hle := UInt64.le_iff_toNat_le.1 (hsound.le_mark (hsound.mem_values_iff.1 hrow))
    exact Nat.le_trans hle hmark
  refine ⟨fun store history hrun => ?_, fun db history hrun => ?_⟩
  · have hmark := hrun.mark_le hskew
    exact ⟨hmark, hstored hrun.run.hasHistory.sound hmark⟩
  · obtain ⟨state, hrecords, -⟩ := hrun.run.records
    have hmark := hrun.mark_le hskew
    refine ⟨hmark, ?_⟩
    rw [hrecords.mark_eq] at hmark
    rw [hrecords.storedTimes_eq]
    exact hstored hrecords.sound hmark

/-- An edit whose claimed time is as far ahead as the usual limits let it be at 1000. -/
def boldEdit : SyncCall := .putIfRecent "a" (SyncTables.sampleNote "bold") 301000

/-- A write of another row. -/
def plainWrite : SyncCall := .put "b" (SyncTables.sampleNote "plain")

/-- A store with an edit with a bold claim and a write at a time before. -/
def draggedStore : Store :=
  (SyncTables.perform {} (SyncTables.perform {} ∅ SyncTables.sampleScope 1000 boldEdit).2
    SyncTables.sampleScope 500 plainWrite).2

/-- A database with the same. -/
def draggedDatabase : Database :=
  (Database.performSync {} SyncTables.sampleScope 500 plainWrite
    (Database.performSync {} SyncTables.sampleScope 1000 boldEdit ∅).2).2

/-- After two writes the mark is within two of the bold claim, in a store and in a database. -/
theorem claims_drift_bounded_sample :
    ({} : Limits).maxSkew = some 300000 ∧
    (draggedStore.table SyncTables.sampleScope).highWater = 301001 ∧
    (draggedStore.table SyncTables.sampleScope).highWater.toNat ≤ 1000 + 300000 + 2 ∧
    draggedDatabase.mark SyncTables.sampleScope = 301001 ∧
    (draggedDatabase.mark SyncTables.sampleScope).toNat ≤ 1000 + 300000 + 2 := by
  have hskew : ({} : Limits).maxSkew = some 300000 := rfl
  obtain ⟨hstore, hdatabase⟩ := claims_drift_bounded hskew SyncTables.sampleScope 1000
  have hwritten : SyncTables.RunUntil {} SyncTables.sampleScope 1000 draggedStore _ :=
    .call (by decide) plainWrite (.call (by decide) boldEdit .start)
  have hrecorded : Database.RunUntil {} SyncTables.sampleScope 1000 draggedDatabase _ :=
    .call (by decide) plainWrite (.call (by decide) boldEdit (.start rfl))
  refine ⟨hskew, by decide +kernel, ?_, by decide +kernel, ?_⟩
  · exact (hstore _ _ hwritten).1
  · exact (hdatabase _ _ hrecorded).1

end RowSync
