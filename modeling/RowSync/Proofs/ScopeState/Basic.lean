import RowSync.Call
import RowSync.HybridClock
import RowSync.Limits

/-!
# The State of a Scope

What an observer knows of a scope: the rows by id, and the largest timestamp assigned. The calls on
sync tables are given here as operations on such a state (`ScopeState.perform`), without an index,
without staged rows and without statements to a database. Every way of keeping rows is measured
against these operations.
-/

namespace RowSync

/-- The state of a scope. -/
structure ScopeState where
  /-- The rows by id, tombstones included. -/
  rows : OrderedMap RowId Row
  /-- The largest timestamp assigned, zero if none. -/
  mark : Timestamp
deriving DecidableEq, Repr

namespace ScopeState

/-- The state of a scope that was never written. -/
def initial : ScopeState := ⟨∅, 0⟩

instance : Inhabited ScopeState := ⟨initial⟩

/-! ## Reads -/

/-- The row with an id, tombstones included. -/
def get? (state : ScopeState) (id : RowId) : Option Row := state.rows.get? id

/-- The live rows in the order of their ids. -/
def liveRows (state : ScopeState) : List Row := state.rows.values.filter Row.isLive

/-- The rows last written after a time, in the order of the change log. -/
def changesAfter (state : ScopeState) (time : Timestamp) : List Row :=
  inChangeOrder (state.rows.values.filter fun row => time < row.modifiedAt)

/-- All live rows, with the mark as the baseline. -/
def snapshot (state : ScopeState) : SyncReport where
  newTimestamp := state.mark
  changes := state.liveRows

/-- The live row with an id. -/
def getLive (state : ScopeState) (id : RowId) : Except SyncError Row := do
  checkRowId id
  match (state.get? id).filter Row.isLive with
  | some row => .ok row
  | none => .error (.rowNotFound id)

/-! ## Single writes -/

/-- The state after a row was written at the latest time. -/
def put (state : ScopeState) (row : Row) : ScopeState :=
  ⟨state.rows.insert row.id row, row.modifiedAt⟩

/-- The state after rows were written one after the other. -/
def putAll (state : ScopeState) (rows : List Row) : ScopeState := rows.foldl put state

/-- The next timestamp, the given one if it is ahead of the mark. -/
def nextTime (state : ScopeState) (seed : Timestamp) : Except SyncError Timestamp :=
  (HybridClock.tick ⟨state.mark⟩ seed).map Prod.fst

/-- Write a payload to a row. -/
def upsert (state : ScopeState) (seed : Timestamp) (id : RowId) (payload : Payload) :
    Except SyncError (Row × ScopeState) := do
  let time ← state.nextTime seed
  let row := Row.create id payload time
  return (row, state.put row)

/-- Turn a row into a tombstone. -/
def delete (state : ScopeState) (seed : Timestamp) (id : RowId) :
    Except SyncError (Row × ScopeState) :=
  match state.get? id with
  | none => .error (.rowNotFound id)
  | some row => do
    let time ← state.nextTime seed
    let row := row.entomb time
    return (row, state.put row)

/-- Apply a mutation. -/
def apply (state : ScopeState) (now : Timestamp) : Mutation → Except SyncError (Row × ScopeState)
  | .upsert id payload => state.upsert now id payload
  | .delete id => state.delete now id

/-- Apply mutations in order; also the rows as they were written one by one. -/
def applyAll (state : ScopeState) (now : Timestamp) :
    List Mutation → Except SyncError (List Row × ScopeState)
  | [] => .ok ([], state)
  | mutation :: rest => do
    let (row, state) ← state.apply now mutation
    let (rows, state) ← state.applyAll now rest
    return (row :: rows, state)

/-! ## Calls -/

variable (limits : Limits) (now : Timestamp) (state : ScopeState)

/-- Apply the mutations of a batch whose rows did not change after the baseline. -/
def sync (base : Timestamp) (batch : List Mutation) :
    Except SyncError (SyncReport × ScopeState) := do
  limits.checkBatch batch
  let split := splitBatch (state.changesAfter base) batch
  let (_, state) ← state.applyAll now split.accepted
  let report := SyncReport.ofChanges base (state.changesAfter base)
  return (report.withConflicts split.conflicts, state)

/-- What is told after rows were written one by one: the last state of each. -/
def written (rows : List Row) (state : ScopeState) : SyncReport where
  newTimestamp := state.mark
  changes := lastWritten rows

/-- Apply mutations, and report the last state of each row written. -/
def applyBatch (batch : List Mutation) : Except SyncError (SyncReport × ScopeState) := do
  let (rows, state) ← state.applyAll now batch
  return (written rows state, state)

/-- Apply all mutations of a batch. -/
def push (batch : List Mutation) : Except SyncError (SyncReport × ScopeState) := do
  limits.checkBatch batch
  state.applyBatch now batch

/-- Make the given rows the only live ones. -/
def replace (rows : List FlatRow) : Except SyncError (SyncReport × ScopeState) := do
  limits.checkLength rows.length
  let batch ← replacementBatch (state.liveRows.map Row.id) rows
  state.applyBatch now batch

/-- Do a write with a claimed edit time, unless the row was written after that time. -/
def edit (id : RowId) (claim : Timestamp)
    (write : ScopeState → Except SyncError (Row × ScopeState)) :
    Except SyncError (EditOutcome × ScopeState) := do
  checkRowId id
  limits.checkClaim claim now
  match (state.get? id).filter fun row => claim < row.modifiedAt with
  | some row => return (.stale row, state)
  | none => do
    let (row, state) ← write state
    return (.applied row, state)

/-- The reply to a call that leaves the state as it is. -/
def reading (reply : Except SyncError SyncReply) : Except SyncError (SyncReply × ScopeState) :=
  reply.map fun reply => (reply, state)

/-- The reply to a call that writes. -/
def writing {α : Type} (reply : α → SyncReply) (outcome : Except SyncError (α × ScopeState)) :
    Except SyncError (SyncReply × ScopeState) :=
  outcome.map fun (told, state) => (reply told, state)

/-- Answer a call. -/
def perform : SyncCall → Except SyncError (SyncReply × ScopeState)
  | .rows => state.reading (.ok (.rows state.liveRows))
  | .row id => state.reading ((state.getLive id).map .row)
  | .snapshot => state.reading (.ok (.report state.snapshot))
  | .changesSince base =>
    state.reading (.ok (.report (.ofChanges base (state.changesAfter base))))
  | .put id payload => writing .row do
    checkRowId id
    state.upsert now id payload
  | .delete id => writing .row do
    checkRowId id
    state.delete now id
  | .sync base batch => writing .report (state.sync limits now base batch)
  | .push batch => writing .report (state.push limits now batch)
  | .replace rows => writing .report (state.replace limits now rows)
  | .putIfRecent id payload claim =>
    writing .outcome (state.edit limits now id claim fun state => state.upsert claim id payload)
  | .deleteIfRecent id claim =>
    writing .outcome (state.edit limits now id claim fun state => state.delete claim id)

/-- The state after an operation, which stays as it is if the operation fails. -/
def settle {α : Type} (outcome : Except SyncError (α × ScopeState)) : ScopeState :=
  match outcome with
  | .ok (_, state) => state
  | .error _ => state

/-- The state after a call. -/
def after (call : SyncCall) : ScopeState := state.settle (state.perform limits now call)

end ScopeState

end RowSync
