import RowSync.SyncTables

/-!
# Scripts

What is done in one transaction on a scope, as a value: reads and writes one after the other, each
of which may depend on what those before returned (`Script`). Every call on a sync table that writes
is a check and a script behind it (`SyncCall.check`, `SyncCall.script?`), the same over a store and
over a database. A script can be made to tell the rows that it writes, in the order of writing
(`Script.logged`), without doing anything else (`bind_logged_fst`).
-/

namespace RowSync

/-- A read or a write of a scope in a transaction, by the type of what it returns. -/
inductive Operation : Type → Type
  /-- The row with an id, tombstones included. -/
  | row (id : RowId) : Operation (Option Row)
  /-- The ids of the live rows. -/
  | liveIds : Operation (List RowId)
  /-- The rows changed after a time. -/
  | changesAfter (time : Timestamp) : Operation (List Row)
  /-- The largest timestamp assigned, the transaction included. -/
  | highWater : Operation Timestamp
  /-- Write a payload to a row. -/
  | upsert (id : RowId) (payload : Payload) (claim : Option Timestamp) : Operation Row
  /-- Turn a row into a tombstone. -/
  | delete (id : RowId) (claim : Option Timestamp) : Operation Row

/-- The rows that an operation writes, known from what it returns. -/
def Operation.written {α : Type} (operation : Operation α) (result : α) : List Row :=
  match operation with
  | .upsert _ _ _ | .delete _ _ => [result]
  | .row _ | .liveIds | .changesAfter _ | .highWater => []

/-- What is done in a transaction on a scope. -/
inductive Script (α : Type) : Type 1
  /-- Nothing more; the transaction may be committed. -/
  | done (value : α)
  /-- The transaction fails. -/
  | refuse (cause : SyncError)
  /-- An operation, and what is done after it. -/
  | step {β : Type} (operation : Operation β) (next : β → Script α)

namespace Script

variable {α β γ : Type}

/-- Do one script after the other. -/
def bind (script : Script α) (after : α → Script β) : Script β :=
  match script with
  | done value => after value
  | refuse cause => refuse cause
  | step operation next => step operation fun result => (next result).bind after

instance : Monad Script where
  pure := done
  bind := bind

/-- The script of one operation. -/
def ofOperation (operation : Operation α) : Script α := step operation done

/-- Go on only if an outcome is a success. -/
def ofExcept : Except SyncError α → Script α
  | .ok value => done value
  | .error cause => refuse cause

theorem bind_bind (script : Script α) (second : α → Script β) (third : β → Script γ) :
    script >>= second >>= third = script >>= fun value => second value >>= third := by
  induction script with
  | done value => rfl
  | refuse cause => rfl
  | step operation next ih => exact congrArg (step operation) (funext ih)

instance : LawfulMonad Script := LawfulMonad.mk' Script
  (fun script => by
    induction script with
    | done value => rfl
    | refuse cause => rfl
    | step operation next ih => exact congrArg (step operation) (funext ih))
  (fun _ _ => rfl) bind_bind

/-- The script that also tells the rows that it writes, in the order of writing. -/
def logged : Script α → Script (α × List Row)
  | done value => done (value, [])
  | refuse cause => refuse cause
  | step operation next => step operation fun result => do
    let (value, rows) ← (next result).logged
    return (value, operation.written result ++ rows)

/-- A script that tells the rows that it writes is the script otherwise. -/
theorem bind_logged_fst (script : Script α) :
    (script.logged >>= fun told => pure told.1) = script := by
  induction script with
  | done value => rfl
  | refuse cause => rfl
  | step operation next ih =>
    refine congrArg (step operation) (funext fun result => ?_)
    calc ((next result).logged >>= fun told =>
            pure (told.1, operation.written result ++ told.2)) >>= (fun told => pure told.1)
        = (next result).logged >>= fun told => pure told.1 := bind_bind _ _ _
      _ = next result := ih result

theorem logged_pure (value : α) : (pure value : Script α).logged = pure (value, []) := rfl

/-- A script after another one tells its rows after those of the first one. -/
theorem logged_bind (script : Script α) (after : α → Script β) :
    (script >>= after).logged = do
      let (value, rows) ← script.logged
      let (result, later) ← (after value).logged
      return (result, rows ++ later) := by
  induction script with
  | done value => exact (bind_pure _).symm
  | refuse cause => rfl
  | step operation next ih =>
    refine congrArg (step operation) (funext fun result => ?_)
    show ((next result >>= after).logged >>= fun told =>
        pure (told.1, operation.written result ++ told.2)) =
      ((next result).logged >>= fun told => pure (told.1, operation.written result ++ told.2)) >>=
        fun told => (after told.1).logged >>= fun later => pure (later.1, told.2 ++ later.2)
    rw [ih]
    simp only [bind_assoc, pure_bind, List.append_assoc]

theorem logged_ofOperation (operation : Operation α) :
    (ofOperation operation).logged = do
      let result ← ofOperation operation
      return (result, operation.written result) := by
  refine congrArg (step operation) (funext fun result => ?_)
  exact congrArg (fun rows => done (result, rows)) (List.append_nil _)

/-! ## Scripts of calls -/

/-- Apply a mutation. -/
def apply : Mutation → Script Row
  | .upsert id payload => ofOperation (.upsert id payload none)
  | .delete id => ofOperation (.delete id none)

/-- Apply mutations in order; also the rows as they were written one by one. -/
def applyAll : List Mutation → Script (List Row)
  | [] => return []
  | mutation :: rest => do
    let row ← apply mutation
    let rows ← applyAll rest
    return row :: rows

theorem logged_apply (mutation : Mutation) :
    (apply mutation).logged = do
      let row ← apply mutation
      return (row, [row]) := by
  cases mutation with
  | upsert id payload => exact logged_ofOperation _
  | delete id => exact logged_ofOperation _

/-- The rows that a batch tells to have written are those that it returns. -/
theorem logged_applyAll (batch : List Mutation) :
    (applyAll batch).logged = do
      let rows ← applyAll batch
      return (rows, rows) := by
  induction batch with
  | nil => rfl
  | cons mutation rest ih =>
    simp only [applyAll, logged_bind, logged_apply, logged_pure, ih, bind_assoc, pure_bind,
      List.append_nil, List.singleton_append]

/-- Apply mutations, and report the last state of each row written. -/
def applyBatch (batch : List Mutation) : Script SyncReply := do
  let rows ← applyAll batch
  let newTimestamp ← ofOperation .highWater
  return .report { newTimestamp, changes := lastWritten rows }

/-- Do a write with a claimed edit time, unless the row was written after that time. -/
def edit (id : RowId) (claim : Timestamp) (write absent : Script Row) : Script SyncReply := do
  match ← ofOperation (.row id) with
  | some row =>
    if mayReplace (some row) claim then return .outcome (.applied (← write))
    else return .outcome (.stale row)
  | none => return .outcome (.applied (← absent))

end Script

/-- What a call that writes does in its transaction; none if the call reads. -/
def SyncCall.script? : SyncCall → Option (Script SyncReply)
  | .rows | .row _ | .snapshot | .changesSince _ => none
  | .put id payload => some do return .row (← Script.ofOperation (.upsert id payload none))
  | .delete id => some do return .row (← Script.ofOperation (.delete id none))
  | .sync base batch => some do
    let split := splitBatch (← Script.ofOperation (.changesAfter base)) batch
    let _ ← Script.applyAll split.accepted
    let report := SyncReport.ofChanges base (← Script.ofOperation (.changesAfter base))
    return .report (report.withConflicts split.conflicts)
  | .push batch => some (Script.applyBatch batch)
  | .replace given => some do
    let live ← Script.ofOperation .liveIds
    let batch ← Script.ofExcept (replacementBatch live given)
    Script.applyBatch batch
  | .putIfRecent id payload claim =>
    let write := Script.ofOperation (.upsert id payload (some claim))
    some (Script.edit id claim write write)
  | .deleteIfRecent id claim =>
    some (Script.edit id claim (Script.ofOperation (.delete id (some claim)))
      (.refuse (.rowNotFound id)))

/-- What is checked of a call before its transaction is opened. -/
def SyncCall.check (limits : Limits) (now : Timestamp) : SyncCall → Except SyncError Unit
  | .rows | .row _ | .snapshot | .changesSince _ => .ok ()
  | .put id _ | .delete id => checkRowId id
  | .sync _ batch | .push batch => limits.checkBatch batch
  | .replace given => limits.checkLength given.length
  | .putIfRecent id _ claim | .deleteIfRecent id claim => SyncTables.checkEdit limits now id claim

/-- The rows that were told besides a value; none if there was a failure. -/
def loggedRows {ε α : Type} : Except ε (α × List Row) → List Row
  | .ok (_, rows) => rows
  | .error _ => []

end RowSync
