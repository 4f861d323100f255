import RowSync.Proofs.Database.Rollback
import RowSync.Proofs.Script.Basic

/-!
# Scripts over a Database

How scripts are done by a writer (`Script.write`). A call on a sync table that writes is its check
and its script behind it, done in one transaction (`Database.performSync_of_script`). So what a call
does to a database is known from what the operations of its script do, one by one, and a call is all
or nothing, whatever its script does (`Database.allOrNothing_performSync`).
-/

namespace RowSync

open Database

variable {limits : Limits} {scope : Scope} {now : Timestamp} {α β : Type}

/-- Do an operation with a writer. -/
def Operation.write (scope : Scope) (operation : Operation α) (writer : Writer) :
    Session (α × Writer) :=
  match operation with
  | .row id => return (← getRow? scope id, writer)
  | .liveIds => return (← Database.run (.liveIds scope), writer)
  | .changesAfter time => return (← Database.changesAfter scope time, writer)
  | .highWater => return (writer.clock.highWater, writer)
  | .upsert id payload claim => writer.upsert id payload claim
  | .delete id claim => writer.delete id claim

namespace Script

/-- Do a script with a writer. -/
def write (scope : Scope) (script : Script α) (writer : Writer) : Session (α × Writer) :=
  match script with
  | done value => return (value, writer)
  | refuse cause => throw (.refused cause)
  | step operation next => do
    let (result, writer) ← operation.write scope writer
    (next result).write scope writer

/-- Scripts one after the other are done one after the other. -/
theorem write_bind (script : Script α) (after : α → Script β) (writer : Writer) :
    (script >>= after).write scope writer =
      script.write scope writer >>= fun told => (after told.1).write scope told.2 := by
  induction script generalizing writer with
  | done value => exact (pure_bind _ _).symm
  | refuse cause => rfl
  | step operation next ih =>
    show (operation.write scope writer >>= fun told =>
      (next told.1 >>= after).write scope told.2) = _
    simp only [ih]
    exact (bind_assoc _ _ _).symm

theorem write_pure (value : α) (writer : Writer) :
    (pure value : Script α).write scope writer = pure (value, writer) := rfl

theorem write_ofOperation (operation : Operation α) (writer : Writer) :
    (ofOperation operation).write scope writer = operation.write scope writer := by
  show (operation.write scope writer >>= fun told => pure told) = operation.write scope writer
  exact bind_pure _

theorem write_ofExcept (outcome : Except SyncError α) (writer : Writer) :
    (ofExcept outcome).write scope writer =
      check outcome >>= fun value => pure (value, writer) := by
  cases outcome with
  | ok value => rfl
  | error cause => rfl

theorem write_apply (mutation : Mutation) (writer : Writer) :
    (apply mutation).write scope writer = writer.apply mutation := by
  cases mutation <;> exact write_ofOperation _ _

/-- The script that applies mutations is done by applying them. -/
theorem write_applyAll (batch : List Mutation) (writer : Writer) :
    (applyAll batch).write scope writer = writer.applyAll batch := by
  induction batch generalizing writer with
  | nil => rfl
  | cons mutation rest ih =>
    rw [applyAll, write_bind, write_apply, Writer.applyAll]
    refine bind_congr fun told => ?_
    rw [write_bind, ih]
    rfl

/-- A script that tells the rows that it writes is done like the script otherwise. -/
theorem write_eq_write_logged (script : Script α) (writer : Writer) :
    script.write scope writer =
      script.logged.write scope writer >>= fun told => pure (told.1.1, told.2) := by
  calc script.write scope writer
      = (script.logged >>= fun told => pure told.1).write scope writer := by rw [bind_logged_fst]
    _ = script.logged.write scope writer >>= fun told => pure (told.1.1, told.2) := write_bind _ _ _

end Script

namespace Database

/-- Do a script in one transaction. -/
def runScript (scope : Scope) (now : Timestamp) (script : Script α) : Session α :=
  writing scope now fun writer => return (← script.write scope writer).1

/-- Checks one after the other are one check. -/
theorem check_bind (first : Except SyncError α) (second : α → Except SyncError β) :
    check (first >>= second) = check first >>= fun value => check (second value) := by
  cases first <;> rfl

/-- What is told of the result of a transaction may be told in it. -/
theorem transaction_map (body : Session α) (f : α → β) :
    transaction (body >>= fun value => pure (f value)) =
      transaction body >>= fun value => pure (f value) := by
  have hended : ((body >>= fun value => pure (f value)) >>= fun value =>
      run .commit >>= fun _ => pure value : Session β) =
        (body >>= fun value => run .commit >>= fun _ => pure value) >>= fun value =>
          pure (f value) := by
    simp only [bind_assoc, pure_bind]
  funext db
  cases hbegin : run .begin db with
  | mk opening opened =>
    cases opening with
    | error e =>
      -- Neither body is reached.
      have hfails : transaction body db = (.error e, opened) := by rw [transaction, hbegin]
      rw [bind_of_error hfails, transaction, hbegin]
    | ok _ =>
      -- The body is done up to its commit, and what it tells is told as something else.
      generalize hbody : (body >>= fun value => run .commit >>= fun _ => pure value : Session α)
        opened = outcome
      obtain ⟨outcome, ended⟩ := outcome
      cases outcome with
      | error e =>
        have hfails : transaction body db = (.error e, { ended with tables := opened.tables }) := by
          rw [transaction, hbegin]
          simp only [hbody]
        rw [bind_of_error hfails, transaction, hbegin, hended]
        simp only [bind_of_error hbody]
      | ok value =>
        have hdone : transaction body db = (.ok value, ended) := by
          rw [transaction, hbegin]
          simp only [hbody]
        rw [bind_of_ok hdone, transaction, hbegin, hended]
        simp only [bind_of_ok hbody]
        rfl

/-- A transaction behind a check whose result is told as a reply is a script done in one
transaction, if its body is up to the reply. -/
theorem map_check_writing {script : Script β} {reply : α → β} {body : Writer → Session α}
    (h : ∀ writer, body writer >>= (fun value => pure (reply value)) =
      script.write scope writer >>= fun told => pure told.1) (checked : Except SyncError Unit) :
    (check checked >>= fun _ => writing scope now body) >>= (fun value => pure (reply value)) =
      check checked >>= fun _ => runScript scope now script := by
  have hbody : writing scope now body >>= (fun value => pure (reply value)) =
      runScript scope now script := by
    rw [writing, ← transaction_map, bind_assoc]
    simp only [h]
    rfl
  rw [bind_assoc, hbody]

/-- An edit is done as its script, if it does the write of the script, and where there is no row
what the script does then. -/
theorem edit_eq_write (id : RowId) (claim : Timestamp) {writer : Writer}
    {first : Session (Row × Writer)} {second : Session EditOutcome} {write absent : Script Row}
    (hwrite : write.write scope writer = first)
    (habsent : absent.write scope writer >>= (fun told => pure (.applied told.1)) = second) :
    (getRow? scope id >>= fun row =>
      match row with
      | some row =>
        if mayReplace (some row) claim then
          first >>= fun told => pure (EditOutcome.applied told.1)
        else pure (.stale row)
      | none => second) >>=
        (fun outcome => pure (SyncReply.outcome outcome)) =
      (Script.edit id claim write absent).write scope writer >>= fun told => pure told.1 := by
  rw [Script.edit, Script.write_bind, Script.write_ofOperation, Operation.write, bind_assoc,
    bind_assoc, bind_assoc]
  refine bind_congr fun row => ?_
  rw [pure_bind]
  -- Both look at the row alike, and both tell what was written as taken.
  cases row with
  | none => simp only [Script.write_bind, Script.write_pure, bind_assoc, pure_bind, ← habsent]
  | some row =>
    dsimp only
    split
    · simp only [Script.write_bind, Script.write_pure, bind_assoc, pure_bind, hwrite]
    · rfl

/-- An edit behind its checks is one check and its script, done in one transaction. -/
theorem edit_of_script {script : Script SyncReply} {body : Writer → Session EditOutcome}
    (id : RowId) (claim : Timestamp)
    (h : ∀ writer, body writer >>= (fun outcome => pure (SyncReply.outcome outcome)) =
      script.write scope writer >>= fun told => pure told.1) :
    (check (checkRowId id) >>= fun _ => check (limits.checkClaim claim now) >>= fun _ =>
      writing scope now body) >>= (fun outcome => pure (SyncReply.outcome outcome)) =
      check (SyncTables.checkEdit limits now id claim) >>= fun _ => runScript scope now script := by
  rw [← map_check_writing h, SyncTables.checkEdit, check_bind]
  simp only [bind_assoc]

/-- A call that writes is a check and its script, done in one transaction. -/
theorem performSync_of_script {call : SyncCall} {script : Script SyncReply}
    (h : call.script? = some script) : performSync limits scope now call =
      check (call.check limits now) >>= fun _ => runScript scope now script := by
  -- The body of a call is its script up to the laws of monads; an edit has its checks one by one.
  cases call with
  | rows | row | snapshot | changesSince => cases h
  | put id payload =>
    cases h
    refine map_check_writing (fun writer => ?_) _
    simp only [Script.write_bind, Script.write_ofOperation, Script.write_pure, Operation.write,
      bind_assoc, pure_bind]
  | delete id =>
    cases h
    refine map_check_writing (fun writer => ?_) _
    simp only [Script.write_bind, Script.write_ofOperation, Script.write_pure, Operation.write,
      bind_assoc, pure_bind]
  | sync base batch =>
    cases h
    refine map_check_writing (fun writer => ?_) _
    simp only [Script.write_bind, Script.write_ofOperation, Script.write_applyAll,
      Script.write_pure, Operation.write, bind_assoc, pure_bind]
  | push batch =>
    cases h
    refine map_check_writing (fun writer => ?_) _
    simp only [applyBatch, Script.applyBatch, Script.write_bind, Script.write_ofOperation,
      Script.write_applyAll, Script.write_pure, Operation.write, bind_assoc, pure_bind]
  | replace given =>
    cases h
    refine map_check_writing (fun writer => ?_) _
    simp only [applyBatch, Script.applyBatch, Script.write_bind, Script.write_ofOperation,
      Script.write_ofExcept, Script.write_applyAll, Script.write_pure, Operation.write, bind_assoc,
      pure_bind]
  | putIfRecent id payload claim =>
    cases h
    refine edit_of_script id claim fun writer => ?_
    refine edit_eq_write id claim (Script.write_ofOperation _ _) ?_
    rw [Script.write_ofOperation]
    rfl
  | deleteIfRecent id claim =>
    cases h
    refine edit_of_script id claim fun writer => ?_
    exact edit_eq_write id claim (Script.write_ofOperation _ _) rfl

/-- A call without a script leaves the tables as they are. -/
theorem readsOnly_performSync {call : SyncCall} (h : call.script? = none) :
    ReadsOnly (performSync limits scope now call) := by
  cases call with
  | rows => exact (readsOnly_liveRows scope).bind fun _ => keeps_pure _
  | row id => exact (readsOnly_getLive scope id).bind fun _ => keeps_pure _
  | snapshot => exact (readsOnly_snapshot scope).bind fun _ => keeps_pure _
  | changesSince base =>
    have hread : ReadsOnly (changesSince scope base) :=
      (readsOnly_changesAfter scope base).bind fun _ => keeps_pure _
    exact hread.bind fun _ => keeps_pure _
  | put | delete | sync | push | replace | putIfRecent | deleteIfRecent => cases h

/-- Every call on a sync table is all or nothing. -/
theorem allOrNothing_performSync (limits : Limits) (scope : Scope) (now : Timestamp)
    (call : SyncCall) : AllOrNothing (performSync limits scope now call) := by
  cases hscript : call.script? with
  | none => exact (readsOnly_performSync hscript).allOrNothing
  | some script =>
    -- What is done in the transaction does not matter.
    rw [performSync_of_script hscript]
    exact ReadsOnly.allOrNothing_bind (keeps_check _) fun _ => allOrNothing_transaction _

end Database

end RowSync
