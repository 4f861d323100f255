import RowSync.Proofs.BulkWrites
import RowSync.Proofs.History

/-!
# Committed Writes

The mutations that calls commit, each with the timestamp that was assigned to it
(`SyncTables.committed`). Which mutations these are is read off the call and its reply
(`SyncTables.planned`): those of single writes and of edits that were taken, those of an exchange
whose rows did not change after the baseline, those of a batch that is pushed, and those that a
replacement makes. The rows that a call writes are those mutations, made one after the other
(`SyncTables.records_rowsWritten`).
-/

namespace RowSync

/-- A mutation that was committed. -/
structure Write where
  /-- What was done. -/
  mutation : Mutation
  /-- The timestamp that was assigned. -/
  time : Timestamp
deriving DecidableEq, Repr

/-- The row that was written. -/
def Write.rowId (write : Write) : RowId := write.mutation.rowId

/-! ## Mutations and rows -/

namespace ScopeState

variable {state state' : ScopeState} {mutation : Mutation} {mutations batch : List Mutation}
  {row : Row} {rows : List Row} {seed now : Timestamp}

/-- The rows are what the mutations make of the state, one row for each of them. -/
inductive Records : ScopeState → List Mutation → List Row → Prop
  | nil {state : ScopeState} : Records state [] []
  | cons {state : ScopeState} {mutation : Mutation} {mutations : List Mutation} {row : Row}
    {rows : List Row} (hid : row.id = mutation.rowId)
    (hcontent : some row.content =
      mutation.effect ((state.get? mutation.rowId).map Row.content))
    (hrest : Records (state.put row) mutations rows) :
    Records state (mutation :: mutations) (row :: rows)

theorem Records.length_eq (h : state.Records mutations rows) : mutations.length = rows.length := by
  induction h with
  | nil => rfl
  | cons _ _ _ ih => rw [List.length_cons, List.length_cons, ih]

theorem records_of_apply (hsound : state.Sound)
    (h : state.apply seed mutation = .ok (row, state')) : state.Records [mutation] [row] := by
  obtain ⟨hid, -, -, -, hcontent⟩ := apply_eq_ok hsound h
  exact .cons hid hcontent .nil

theorem records_of_applyAll (hsound : state.Sound)
    (h : state.applyAll now batch = .ok (rows, state')) : state.Records batch rows := by
  induction batch generalizing state rows with
  | nil =>
    cases h
    exact .nil
  | cons mutation rest ih =>
    obtain ⟨⟨row, middle⟩, hfirst, h⟩ := bind_eq_ok_iff.1 h
    obtain ⟨⟨others, last⟩, hrest, h⟩ := bind_eq_ok_iff.1 h
    cases h
    obtain ⟨hid, rfl, hlt, hle, hcontent⟩ := apply_eq_ok hsound hfirst
    exact .cons hid hcontent (ih (hsound.put hlt hle) hrest)

end ScopeState

namespace Transaction

variable {txn txn' : Transaction} {row : Row} {rows : List Row} {id : RowId} {payload : Payload}
  {claim : Option Timestamp} {batch : List Mutation}

/-- The row that a write of a payload tells is that of its mutation. -/
theorem Sound.records_upsert (h : txn.Sound)
    (hrun : (Script.ofOperation (.upsert id payload claim)).logged.run txn =
      .ok ((row, rows), txn')) : txn.state.Records [.upsert id payload] rows := by
  obtain ⟨hwrite, rfl⟩ := Script.run_logged_ofOperation_eq_ok hrun
  have hstate : txn.state.apply (claim.getD txn.now) (.upsert id payload) = .ok (row, txn'.state) :=
    ((h.follows_upsert id payload claim).eq_ok hwrite).1
  exact ScopeState.records_of_apply h.state hstate

theorem Sound.records_delete (h : txn.Sound)
    (hrun : (Script.ofOperation (.delete id claim)).logged.run txn = .ok ((row, rows), txn')) :
    txn.state.Records [.delete id] rows := by
  obtain ⟨hwrite, rfl⟩ := Script.run_logged_ofOperation_eq_ok hrun
  have hstate : txn.state.apply (claim.getD txn.now) (.delete id) = .ok (row, txn'.state) :=
    ((h.follows_delete id claim).eq_ok hwrite).1
  exact ScopeState.records_of_apply h.state hstate

theorem Sound.records_applyAll (h : txn.Sound) (hok : txn.applyAll batch = .ok (rows, txn')) :
    txn.state.Records batch rows :=
  ScopeState.records_of_applyAll h.state ((h.follows_applyAll batch).eq_ok hok).1

end Transaction

namespace SyncTables

variable {limits : Limits} {store : Store} {scope : Scope} {now : Timestamp} {call : SyncCall}
  {reply : SyncReply}

/-- The mutations that a call commits which has this reply. -/
def planned (store : Store) (scope : Scope) : SyncCall → SyncReply → List Mutation
  | .put id payload, _ => [.upsert id payload]
  | .delete id, _ => [.delete id]
  | .sync base batch, _ => batch.filter fun mutation =>
    mutation.rowId ∉ (changesSince store scope base).changes.map Row.id
  | .push batch, _ => batch
  | .replace given, _ =>
    match replacementBatch ((store.liveRows scope).map Row.id) given with
    | .ok batch => batch
    | .error _ => []
  | .putIfRecent id payload _, .outcome (.applied _) => [.upsert id payload]
  | .deleteIfRecent id _, .outcome (.applied _) => [.delete id]
  | .rows, _ | .row _, _ | .snapshot, _ | .changesSince _, _ | .putIfRecent _ _ _, _
  | .deleteIfRecent _ _, _ => []

/-- A call that succeeds has passed its check, and the run of its script tells the rows written. -/
theorem run_logged_of_perform (h : store.Sound) {script : Script SyncReply}
    (hscript : call.script? = some script)
    (hok : (perform limits store scope now call).1 = .ok reply) :
    call.check limits now = .ok () ∧ ∃ txn, script.logged.run (.start (store.table scope) now) =
      .ok ((reply, rowsWritten limits store scope now call), txn) := by
  rcases perform_script_cases h hscript limits scope now with
    ⟨e, hfail, -⟩ | ⟨told, txn, htold, hcheck, hrun, -⟩
  · rw [hok] at hfail
    cases hfail
  · rw [hok] at htold
    cases htold
    exact ⟨hcheck, txn, hrun⟩

/-- A call that fails writes no rows. -/
theorem rowsWritten_of_error (h : store.Sound) {e : SyncError}
    (hfail : (perform limits store scope now call).1 = .error e) :
    rowsWritten limits store scope now call = [] := by
  cases hscript : call.script? with
  | none => rw [rowsWritten, hscript]
  | some script =>
    rcases perform_script_cases h hscript limits scope now with
      ⟨_, -, hnone, -⟩ | ⟨_, _, hok, -⟩
    · exact hnone
    · rw [hfail] at hok
      cases hok

/-- What is replied to a write does not change the rows that it tells. -/
theorem records_of_write {txn txn' : Transaction} {mutation : Mutation} {write : Script Row}
    {rows : List Row} {tell : Row → SyncReply}
    (hwrite : ∀ {row rows txn'}, write.logged.run txn = .ok ((row, rows), txn') →
      txn.state.Records [mutation] rows)
    (hrun : (write >>= fun row => pure (tell row)).logged.run txn = .ok ((reply, rows), txn')) :
    ∃ row, reply = tell row ∧ txn.state.Records [mutation] rows := by
  obtain ⟨row, first, _, _, hfirst, hpure, rfl⟩ := Script.run_logged_bind_eq_ok hrun
  cases hpure
  rw [List.append_nil]
  exact ⟨row, rfl, hwrite hfirst⟩

/-- The rows written by an edit are those of its mutation if it was taken, and none otherwise. -/
theorem records_edit {txn txn' : Transaction} {id : RowId} {claim : Timestamp}
    {mutation : Mutation} {write absent : Script Row} {rows : List Row}
    (hwrite : ∀ {row rows txn'}, write.logged.run txn = .ok ((row, rows), txn') →
      txn.state.Records [mutation] rows)
    (habsent : ∀ {row rows txn'}, absent.logged.run txn = .ok ((row, rows), txn') →
      txn.state.Records [mutation] rows)
    (hrun : (Script.edit id claim write absent).logged.run txn = .ok ((reply, rows), txn')) :
    (∃ row, reply = .outcome (.applied row) ∧ txn.state.Records [mutation] rows) ∨
      ∃ row, reply = .outcome (.stale row) ∧ rows = [] := by
  obtain ⟨found, _, middle, later, hfirst, hrest, rfl⟩ := Script.run_logged_bind_eq_ok hrun
  obtain ⟨hread, rfl⟩ := Script.run_logged_ofOperation_eq_ok hfirst
  cases hread
  -- What is left is the write, the write for a row that is not there, or nothing.
  cases hget : txn.get? id with
  | none =>
    rw [hget] at hrest
    exact .inl (records_of_write habsent hrest)
  | some row =>
    rw [hget] at hrest
    dsimp only at hrest
    split at hrest
    · exact .inl (records_of_write hwrite hrest)
    · cases hrest
      exact .inr ⟨row, rfl, rfl⟩

/-- The rows written by a batch that is applied are those of its mutations. -/
theorem records_applyBatch {txn txn' : Transaction} (hsound : txn.Sound) {batch : List Mutation}
    {rows : List Row}
    (hrun : (Script.applyBatch batch).logged.run txn = .ok ((reply, rows), txn')) :
    txn.state.Records batch rows := by
  obtain ⟨written, _, middle, later, happly, hrest, rfl⟩ := Script.run_logged_bind_eq_ok hrun
  obtain ⟨happly, rfl⟩ := Script.run_logged_applyAll_eq_ok happly
  cases hrest
  show txn.state.Records batch (_ ++ [])
  rw [List.append_nil]
  exact hsound.records_applyAll happly

/-- The rows that a call writes are what the mutations that it commits make of the state. -/
theorem records_rowsWritten (h : store.Sound)
    (hok : (perform limits store scope now call).1 = .ok reply) :
    (store.state scope).Records (planned store scope call reply)
      (rowsWritten limits store scope now call) := by
  have hstart : (Transaction.start (store.table scope) now).Sound :=
    Transaction.sound_start (h scope) now
  cases call with
  | rows | row | snapshot | changesSince => exact .nil
  | put id payload =>
    obtain ⟨-, txn, hrun⟩ := run_logged_of_perform h rfl hok
    obtain ⟨row, -, hrecords⟩ := records_of_write hstart.records_upsert hrun
    exact hrecords
  | delete id =>
    obtain ⟨-, txn, hrun⟩ := run_logged_of_perform h rfl hok
    obtain ⟨row, -, hrecords⟩ := records_of_write hstart.records_delete hrun
    exact hrecords
  | sync base batch =>
    obtain ⟨-, txn, hrun⟩ := run_logged_of_perform h rfl hok
    obtain ⟨changes, _, _, _, hread, hrun, hrows⟩ := Script.run_logged_bind_eq_ok hrun
    obtain ⟨hread, rfl⟩ := Script.run_logged_ofOperation_eq_ok hread
    cases hread
    obtain ⟨written, _, _, _, happly, hrest, rfl⟩ := Script.run_logged_bind_eq_ok hrun
    obtain ⟨happly, rfl⟩ := Script.run_logged_applyAll_eq_ok happly
    cases hrest
    -- The rows that changed after the baseline are read at the start of the transaction.
    have hchanges : (Transaction.start (store.table scope) now).changesAfter base =
        (changesSince store scope base).changes :=
      (hstart.changesAfter_eq base).trans ((h scope).rowsAfter_eq base).symm
    rw [accepted_splitBatch, hchanges] at happly
    rw [hrows]
    show (store.state scope).Records (batch.filter _) (_ ++ [])
    rw [List.append_nil]
    exact hstart.records_applyAll happly
  | push batch =>
    obtain ⟨-, txn, hrun⟩ := run_logged_of_perform h rfl hok
    exact records_applyBatch hstart hrun
  | replace given =>
    obtain ⟨-, txn, hrun⟩ := run_logged_of_perform h rfl hok
    obtain ⟨live, _, _, _, hread, hrun, hrows⟩ := Script.run_logged_bind_eq_ok hrun
    obtain ⟨hread, rfl⟩ := Script.run_logged_ofOperation_eq_ok hread
    cases hread
    -- What is planned depends on which rows are live, but not on their order.
    rw [replacementBatch_perm hstart.liveIds_perm] at hrun
    obtain ⟨batch, _, _, _, hfirst, hrun, rfl⟩ := Script.run_logged_bind_eq_ok hrun
    obtain ⟨hbatch, rfl, rfl⟩ := Script.run_logged_ofExcept_eq_ok hfirst
    have hplanned : planned store scope (.replace given) reply = batch := by
      have hlive : replacementBatch ((store.liveRows scope).map Row.id) given = .ok batch := hbatch
      rw [planned, hlive]
    rw [hplanned, hrows]
    exact records_applyBatch hstart hrun
  | putIfRecent id payload claim =>
    obtain ⟨-, txn, hrun⟩ := run_logged_of_perform h rfl hok
    rcases records_edit hstart.records_upsert hstart.records_upsert hrun with
      ⟨row, rfl, hrecords⟩ | ⟨row, rfl, hrows⟩
    · exact hrecords
    · rw [hrows]
      exact .nil
  | deleteIfRecent id claim =>
    obtain ⟨-, txn, hrun⟩ := run_logged_of_perform h rfl hok
    -- A row that is not there makes the edit fail.
    rcases records_edit hstart.records_delete (fun hrun => by cases hrun) hrun with
      ⟨row, rfl, hrecords⟩ | ⟨row, rfl, hrows⟩
    · exact hrecords
    · rw [hrows]
      exact .nil

/-! ## Row ids -/

theorem checkRowId_of_checkBatch {batch : List Mutation} (h : limits.checkBatch batch = .ok ()) :
    ∀ mutation ∈ batch, checkRowId mutation.rowId = .ok () := by
  obtain ⟨_, -, hall⟩ := bind_eq_ok_iff.1 h
  clear h
  induction batch with
  | nil => simp
  | cons first rest ih =>
    obtain ⟨_, hfirst, hrest⟩ := bind_eq_ok_iff.1 hall
    exact List.forall_mem_cons.2 ⟨hfirst, ih hrest⟩

/-- The mutations that a call commits have valid row ids, if the live rows have. -/
theorem checkRowId_of_planned (h : store.Sound)
    (hok : (perform limits store scope now call).1 = .ok reply)
    (hlive : ∀ id ∈ (store.liveRows scope).map Row.id, checkRowId id = .ok ()) :
    ∀ mutation ∈ planned store scope call reply, checkRowId mutation.rowId = .ok () := by
  intro mutation hmem
  cases call with
  | rows | row | snapshot | changesSince => cases hmem
  | put id payload | delete id =>
    obtain rfl := List.mem_singleton.1 hmem
    exact (run_logged_of_perform h rfl hok).1
  | sync base batch =>
    have hcheck := (run_logged_of_perform h rfl hok).1
    exact checkRowId_of_checkBatch hcheck mutation (List.mem_filter.1 hmem).1
  | push batch =>
    exact checkRowId_of_checkBatch (run_logged_of_perform h rfl hok).1 mutation hmem
  | replace given =>
    rw [planned] at hmem
    cases hbatch : replacementBatch ((store.liveRows scope).map Row.id) given with
    | error e =>
      rw [hbatch] at hmem
      cases hmem
    | ok batch =>
      rw [hbatch] at hmem
      have hnamed := List.mem_map_of_mem (f := Mutation.rowId) hmem
      rcases (ScopeState.mem_replacementBatch hbatch).1 hnamed with hgiven | hkept
      · obtain ⟨_, hcheck, -⟩ := bind_eq_ok_iff.1 hbatch
        obtain ⟨row, hrow, hid⟩ := List.mem_map.1 hgiven
        rw [← hid]
        exact (checkReplacement_eq_ok_iff.1 hcheck).1 row hrow
      · exact hlive _ hkept
  | putIfRecent id payload claim | deleteIfRecent id claim =>
    obtain ⟨_, hid, -⟩ := bind_eq_ok_iff.1 (run_logged_of_perform h rfl hok).1
    -- Only an edit that was taken commits anything.
    cases reply with
    | rows | row | report => cases hmem
    | outcome outcome =>
      cases outcome with
      | applied row =>
        obtain rfl := List.mem_singleton.1 hmem
        exact hid
      | stale row => cases hmem

/-! ## Runs -/

/-- The mutations that a call commits, each with the timestamp that was assigned to it. A call that
fails commits none. -/
def committed (limits : Limits) (store : Store) (scope : Scope) (now : Timestamp)
    (call : SyncCall) : List Write :=
  match (perform limits store scope now call).1 with
  | .ok reply => List.zipWith Write.mk (planned store scope call reply)
    ((rowsWritten limits store scope now call).map Row.modifiedAt)
  | .error _ => []

/-- A part of each of the writes made of mutations and timestamps. -/
theorem map_zipWith_mk {α : Type} (f : Write → α) (mutations : List Mutation)
    (times : List Timestamp) : (List.zipWith Write.mk mutations times).map f =
      (mutations.zip times).map fun entry => f ⟨entry.1, entry.2⟩ := by
  rw [List.map_zipWith, List.map_zip_eq_zipWith]
  rfl

/-- All mutations that are planned are committed. -/
theorem map_mutation_committed (h : store.Sound)
    (hok : (perform limits store scope now call).1 = .ok reply) :
    (committed limits store scope now call).map Write.mutation =
      planned store scope call reply := by
  have hlength := (records_rowsWritten h hok).length_eq
  rw [committed, hok]
  dsimp only
  rw [map_zipWith_mk]
  exact List.map_fst_zip (by rw [hlength, List.length_map])

/-- They are committed at the timestamps of the rows that are written. -/
theorem map_time_committed (h : store.Sound) (limits : Limits) (scope : Scope) (now : Timestamp)
    (call : SyncCall) : (committed limits store scope now call).map Write.time =
      (rowsWritten limits store scope now call).map Row.modifiedAt := by
  cases hok : (perform limits store scope now call).1 with
  | error e => rw [rowsWritten_of_error h hok, committed, hok, List.map_nil, List.map_nil]
  | ok reply =>
    have hlength := (records_rowsWritten h hok).length_eq
    rw [committed, hok]
    dsimp only
    rw [map_zipWith_mk]
    exact List.map_snd_zip (by rw [hlength, List.length_map])

/-- The stores that are reached by calls on any scopes at any times, with the writes that were
committed to one of the scopes. -/
inductive Chronicle (limits : Limits) (scope : Scope) : Store → List Write → Prop
  | start : Chronicle limits scope ∅ []
  | call {store : Store} {writes : List Write} (now : Timestamp) (call : SyncCall)
    (hrun : Chronicle limits scope store writes) :
    Chronicle limits scope (perform limits store scope now call).2
      (writes ++ committed limits store scope now call)
  | elsewhere {store : Store} {writes : List Write} {other : Scope} (hother : other ≠ scope)
    (now : Timestamp) (call : SyncCall) (hrun : Chronicle limits scope store writes) :
    Chronicle limits scope (perform limits store other now call).2 writes

/-- A chronicle is a run that writes a row at the timestamp of each write. -/
theorem Chronicle.exists_run {writes : List Write} (hrun : Chronicle limits scope store writes) :
    ∃ history, Run limits scope store history ∧
      writes.map Write.time = history.map Row.modifiedAt := by
  induction hrun with
  | start => exact ⟨[], .start, rfl⟩
  | call now call _ ih =>
    obtain ⟨history, hhistory, htimes⟩ := ih
    have hsound := sound_of_reachable hhistory.reachable
    refine ⟨_, .call now call hhistory, ?_⟩
    rw [List.map_append, List.map_append, htimes, map_time_committed hsound]
  | elsewhere hother now call _ ih =>
    obtain ⟨history, hhistory, htimes⟩ := ih
    exact ⟨history, .elsewhere hother now call hhistory, htimes⟩

theorem Chronicle.sound {writes : List Write} (hrun : Chronicle limits scope store writes) :
    store.Sound := by
  obtain ⟨history, hhistory, -⟩ := hrun.exists_run
  exact sound_of_reachable hhistory.reachable

end SyncTables

end RowSync
