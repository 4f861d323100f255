import RowSync.Proofs.Script.Basic
import RowSync.Proofs.TransactionState
import RowSync.SyncTables

/-!
# Scripts in Transactions on a Store

How scripts are run in a transaction on a store (`Script.run`). A call on a sync table of a store
that writes is the run of its script behind its check (`SyncTables.perform_of_script`). The rows
that a script tells to have written are fresh for the state that the transaction saw, and the state
that it sees afterwards is the one with these rows put (`Transaction.Sound.run_logged`).
-/

namespace RowSync

variable {limits : Limits} {store : Store} {scope : Scope} {now : Timestamp} {α β : Type}

/-- Do an operation in a transaction. -/
def Operation.run (operation : Operation α) (txn : Transaction) :
    Except SyncError (α × Transaction) :=
  match operation with
  | .row id => .ok (txn.get? id, txn)
  | .liveIds => .ok (txn.liveIds, txn)
  | .changesAfter time => .ok (txn.changesAfter time, txn)
  | .highWater => .ok (txn.highWater, txn)
  | .upsert id payload claim => txn.upsert id payload claim
  | .delete id claim => txn.delete id claim

namespace Script

/-- Do a script in a transaction. -/
def run (script : Script α) (txn : Transaction) : Except SyncError (α × Transaction) :=
  match script with
  | done value => .ok (value, txn)
  | refuse cause => .error cause
  | step operation next => do
    let (result, txn) ← operation.run txn
    (next result).run txn

/-- Scripts one after the other are run one after the other. -/
theorem run_bind (script : Script α) (after : α → Script β) (txn : Transaction) :
    (script >>= after).run txn = script.run txn >>= fun told => (after told.1).run told.2 := by
  induction script generalizing txn with
  | done value => rfl
  | refuse cause => rfl
  | step operation next ih =>
    show (operation.run txn >>= fun told => (next told.1 >>= after).run told.2) = _
    simp only [ih]
    exact (bind_assoc _ _ _).symm

/-- A script that tells the rows that it writes is run like the script otherwise. -/
theorem run_eq_run_logged (script : Script α) (txn : Transaction) :
    script.run txn = script.logged.run txn >>= fun told => .ok (told.1.1, told.2) := by
  have hrun := run_bind script.logged (fun told => pure told.1) txn
  rw [bind_logged_fst] at hrun
  exact hrun

theorem run_ofOperation (operation : Operation α) (txn : Transaction) :
    (ofOperation operation).run txn = operation.run txn := by
  show (operation.run txn >>= fun told => .ok told) = operation.run txn
  cases operation.run txn <;> rfl

theorem run_apply (mutation : Mutation) (txn : Transaction) :
    (apply mutation).run txn = txn.apply mutation := by
  cases mutation <;> exact run_ofOperation _ _

/-- The script that applies mutations is run by applying them. -/
theorem run_applyAll (batch : List Mutation) (txn : Transaction) :
    (applyAll batch).run txn = txn.applyAll batch := by
  induction batch generalizing txn with
  | nil => rfl
  | cons mutation rest ih =>
    rw [applyAll, run_bind, run_apply, Transaction.applyAll]
    refine bind_congr fun told => ?_
    rw [run_bind, ih]
    rfl

theorem run_applyBatch (batch : List Mutation) (txn : Transaction) :
    (applyBatch batch).run txn = txn.applyAll batch >>= fun told =>
      .ok (.report (SyncTables.written told.1 told.2), told.2) := by
  rw [applyBatch, run_bind, run_applyAll]
  rfl

theorem run_edit (id : RowId) (claim : Timestamp) (write absent : Script Row)
    (txn : Transaction) : (edit id claim write absent).run txn =
      match txn.get? id with
      | some row =>
        if mayReplace (some row) claim then
          write.run txn >>= fun told => .ok (.outcome (.applied told.1), told.2)
        else .ok (.outcome (.stale row), txn)
      | none => absent.run txn >>= fun told => .ok (.outcome (.applied told.1), told.2) := by
  rw [edit, run_bind, run_ofOperation]
  show Script.run (match txn.get? id with
    | some row => _
    | none => _) txn = _
  cases txn.get? id with
  | some row =>
    dsimp only
    split
    · exact run_bind _ _ _
    · rfl
  | none => exact run_bind _ _ _

/-! ## Scripts that tell their rows -/

variable {script : Script α} {after : α → Script β} {operation : Operation α} {value : α}
  {rows : List Row} {txn txn' : Transaction}

/-- Scripts one after the other succeed if both do, and tell the rows of the first one first. -/
theorem run_logged_bind_eq_ok {result : β}
    (h : (script >>= after).logged.run txn = .ok ((result, rows), txn')) :
    ∃ value first middle later, script.logged.run txn = .ok ((value, first), middle) ∧
      (after value).logged.run middle = .ok ((result, later), txn') ∧ rows = first ++ later := by
  rw [logged_bind, run_bind] at h
  obtain ⟨⟨⟨value, first⟩, middle⟩, hfirst, h⟩ := bind_eq_ok_iff.1 h
  rw [run_bind] at h
  obtain ⟨⟨⟨result', later⟩, last⟩, hlater, h⟩ := bind_eq_ok_iff.1 h
  cases h
  exact ⟨value, first, middle, later, hfirst, hlater, rfl⟩

theorem run_logged_ofOperation_eq_ok
    (h : (ofOperation operation).logged.run txn = .ok ((value, rows), txn')) :
    operation.run txn = .ok (value, txn') ∧ rows = operation.written value := by
  rw [logged_ofOperation, run_bind, run_ofOperation] at h
  obtain ⟨⟨result, middle⟩, hrun, h⟩ := bind_eq_ok_iff.1 h
  cases h
  exact ⟨hrun, rfl⟩

theorem run_logged_ofExcept_eq_ok {outcome : Except SyncError α}
    (h : (ofExcept outcome).logged.run txn = .ok ((value, rows), txn')) :
    outcome = .ok value ∧ rows = [] ∧ txn' = txn := by
  cases outcome with
  | ok found =>
    cases h
    exact ⟨rfl, rfl, rfl⟩
  | error e => cases h

theorem run_logged_applyAll_eq_ok {batch : List Mutation} {written : List Row}
    (h : (applyAll batch).logged.run txn = .ok ((written, rows), txn')) :
    txn.applyAll batch = .ok (written, txn') ∧ rows = written := by
  rw [logged_applyAll, run_bind, run_applyAll] at h
  obtain ⟨⟨result, middle⟩, hrun, h⟩ := bind_eq_ok_iff.1 h
  cases h
  exact ⟨hrun, rfl⟩

end Script

/-! ## Calls as scripts -/

/-- A transaction behind a check whose result is told as a reply is the run of a script, if its body
is up to the reply. -/
theorem Store.mapReply_guarded_transact {script : Script β} {reply : α → β}
    {body : Transaction → Except SyncError (α × Transaction)}
    (h : ∀ txn, body txn >>= (fun told => .ok (reply told.1, told.2)) = script.run txn)
    (check : Except SyncError Unit) :
    mapReply reply (store.guarded check fun store => store.transact scope now body) =
      store.guarded check fun store => store.transact scope now script.run := by
  cases check with
  | error e => rfl
  | ok _ =>
    simp only [guarded, transact, mapReply, ← h]
    cases body (.start (store.table scope) now) <;> rfl

/-- A call without a script leaves the store as it is. -/
theorem SyncTables.perform_of_reads {call : SyncCall} (h : call.script? = none) :
    (perform limits store scope now call).2 = store := by
  cases call with
  | rows | row | snapshot | changesSince => rfl
  | put | delete | sync | push | replace | putIfRecent | deleteIfRecent => cases h

/-- A call that writes is a check and the run of its script in a transaction. -/
theorem SyncTables.perform_of_script {call : SyncCall} {script : Script SyncReply}
    (h : call.script? = some script) : perform limits store scope now call =
      store.guarded (call.check limits now) fun store => store.transact scope now script.run := by
  -- The body of each transaction is the run of the script, up to what it tells.
  cases call with
  | rows | row | snapshot | changesSince => cases h
  | put id payload =>
    cases h
    refine Store.mapReply_guarded_transact (fun txn => ?_) _
    rw [Script.run_bind, Script.run_ofOperation]
    rfl
  | delete id =>
    cases h
    refine Store.mapReply_guarded_transact (fun txn => ?_) _
    rw [Script.run_bind, Script.run_ofOperation]
    rfl
  | sync base batch =>
    cases h
    refine Store.mapReply_guarded_transact (fun txn => ?_) _
    simp only [Script.run_bind, Script.run_ofOperation, Script.run_applyAll, Operation.run]
    rw [bind_assoc]
    rfl
  | push batch =>
    cases h
    refine Store.mapReply_guarded_transact (fun txn => ?_) _
    rw [Script.run_applyBatch, bind_assoc]
    rfl
  | replace given =>
    cases h
    refine Store.mapReply_guarded_transact (fun txn => ?_) _
    rw [Script.run_bind, Script.run_ofOperation]
    show _ = (Script.ofExcept (replacementBatch txn.liveIds given) >>= Script.applyBatch).run txn
    cases replacementBatch txn.liveIds given with
    | error e => rfl
    | ok batch =>
      show (txn.applyAll batch >>= _) >>= _ = (Script.applyBatch batch).run txn
      rw [Script.run_applyBatch, bind_assoc]
      rfl
  | putIfRecent id payload claim =>
    cases h
    refine Store.mapReply_guarded_transact (fun txn => ?_) _
    rw [Script.run_edit, Script.run_ofOperation]
    cases txn.get? id with
    | some row =>
      dsimp only
      split
      · rw [bind_assoc]
        rfl
      · rfl
    | none =>
      dsimp only
      rw [bind_assoc]
      rfl
  | deleteIfRecent id claim =>
    cases h
    refine Store.mapReply_guarded_transact (fun txn => ?_) _
    rw [Script.run_edit, Script.run_ofOperation]
    cases txn.get? id with
    | some row =>
      dsimp only
      split
      · rw [bind_assoc]
        rfl
      · rfl
    | none => rfl

/-! ## Rows that are written -/

namespace Transaction

variable {txn txn' : Transaction}

/-- A computation in step that succeeds has the result of the operation and the state after it. -/
theorem Follows.eq_ok {outcome : Except SyncError (α × Transaction)}
    {expected : Except SyncError (α × ScopeState)} (h : Follows now outcome expected) {value : α}
    (hok : outcome = .ok (value, txn)) : expected = .ok (value, txn.state) ∧ txn.Sound := by
  cases h with
  | ok value hsound hnow =>
    cases hok
    exact ⟨rfl, hsound⟩
  | error e => cases hok

/-- An operation that succeeds puts the rows that it writes, and these are fresh. -/
theorem Sound.run_operation (h : txn.Sound) {operation : Operation α} {result : α}
    (hrun : operation.run txn = .ok (result, txn')) :
    txn.state.Fresh (operation.written result) ∧ txn'.Sound ∧
      txn'.state = txn.state.putAll (operation.written result) := by
  cases operation with
  -- A read writes no rows and leaves the transaction as it is.
  | row | liveIds | changesAfter | highWater =>
    cases hrun
    exact ⟨ScopeState.fresh_nil, h, rfl⟩
  | upsert id payload claim =>
    obtain ⟨hupsert, hsound⟩ := (h.follows_upsert id payload claim).eq_ok hrun
    obtain ⟨time, htime, rfl, hstate⟩ := ScopeState.upsert_eq_ok hupsert
    obtain ⟨hlt, hle⟩ := ScopeState.nextTime_eq_ok htime
    exact ⟨ScopeState.fresh_cons.2 ⟨hlt, hle, ScopeState.fresh_nil⟩, hsound, hstate⟩
  | delete id claim =>
    obtain ⟨hdelete, hsound⟩ := (h.follows_delete id claim).eq_ok hrun
    obtain ⟨before, time, -, htime, rfl, hstate⟩ := ScopeState.delete_eq_ok hdelete
    obtain ⟨hlt, hle⟩ := ScopeState.nextTime_eq_ok htime
    exact ⟨ScopeState.fresh_cons.2 ⟨hlt, hle, ScopeState.fresh_nil⟩, hsound, hstate⟩

/-- A script that succeeds puts the rows that it writes one after the other, and these are fresh. -/
theorem Sound.run_logged (h : txn.Sound) {script : Script α} {value : α} {rows : List Row}
    (hrun : script.logged.run txn = .ok ((value, rows), txn')) :
    txn.state.Fresh rows ∧ txn'.Sound ∧ txn'.state = txn.state.putAll rows := by
  -- The rows of the first operation are put before those of the rest.
  induction script generalizing txn rows with
  | done value =>
    cases hrun
    exact ⟨ScopeState.fresh_nil, h, rfl⟩
  | refuse cause => cases hrun
  | step operation next ih =>
    obtain ⟨⟨result, middle⟩, hfirst, hrun⟩ := bind_eq_ok_iff.1 hrun
    rw [Script.run_bind] at hrun
    obtain ⟨⟨⟨value', later⟩, last⟩, hrest, hrun⟩ := bind_eq_ok_iff.1 hrun
    cases hrun
    obtain ⟨hfresh, hmiddle, hstate⟩ := h.run_operation hfirst
    obtain ⟨hlater, hsound, hlast⟩ := ih result hmiddle hrest
    rw [hstate] at hlater hlast
    refine ⟨ScopeState.fresh_append.2 ⟨hfresh, hlater⟩, hsound, ?_⟩
    rw [hlast, ScopeState.putAll_append]

end Transaction

end RowSync
