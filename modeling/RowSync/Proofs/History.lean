import RowSync.Proofs.Script.Transaction
import RowSync.Proofs.SyncTables

/-!
# Histories

The rows written to a scope, in the order in which they were written (`ScopeState.HasHistory`).
What a call writes is told by its script (`SyncTables.rowsWritten`), so that every run of calls on a
store makes a history of each scope, and the state of the scope is what the history leaves
(`SyncTables.Run.hasHistory`). The rows of a history have increasing timestamps, and the mark is the
last of them.
-/

namespace RowSync

namespace ScopeState

variable {state : ScopeState} {history rows : List Row} {row : Row} {id : RowId}

/-- The state is that of a scope to which the rows were written, one after the other. -/
structure HasHistory (state : ScopeState) (history : List Row) : Prop where
  /-- The rows could be written. -/
  fresh : initial.Fresh history
  /-- The state is what they leave. -/
  eq_putAll : state = initial.putAll history

theorem hasHistory_initial : initial.HasHistory [] := ⟨fresh_nil, rfl⟩

/-- Fresh rows that are written go on with the history. -/
theorem HasHistory.append (h : state.HasHistory history) (hrows : state.Fresh rows) :
    (state.putAll rows).HasHistory (history ++ rows) := by
  obtain ⟨hfresh, rfl⟩ := h
  exact ⟨fresh_append.2 ⟨hfresh, hrows⟩, (putAll_append _ _ _).symm⟩

theorem HasHistory.sound (h : state.HasHistory history) : state.Sound := by
  obtain ⟨hfresh, rfl⟩ := h
  exact sound_initial.putAll hfresh

/-- Every row of the state was written. -/
theorem HasHistory.mem_of_get? (h : state.HasHistory history) (hget : state.get? id = some row) :
    row ∈ history := by
  rw [h.eq_putAll] at hget
  rcases get?_putAll_cases hget with hmem | ⟨-, hinitial⟩
  · exact hmem
  · cases hinitial

/-- The row that was written last with an id. -/
def lastWith (id : RowId) (rows : List Row) : Option Row :=
  rows.reverse.find? fun row => row.id = id

/-- After rows were written, a row is as the last of its writes left it, or as before. -/
theorem get?_putAll (state : ScopeState) (rows : List Row) (id : RowId) :
    (state.putAll rows).get? id = (lastWith id rows).or (state.get? id) := by
  induction rows generalizing state with
  | nil => rfl
  | cons row rest ih =>
    have hlast : lastWith id (row :: rest) = (lastWith id rest).or (lastWith id [row]) := by
      rw [lastWith, List.reverse_cons, List.find?_append]
      rfl
    rw [putAll_cons, ih, hlast, get?_put, Option.or_assoc]
    -- The first row counts where none of the rest has the id.
    by_cases hid : row.id = id
    · simp [lastWith, hid]
    · simp [lastWith, hid, Ne.symm hid]

/-- A row of the state is as the last of its writes left it. -/
theorem HasHistory.get?_eq (h : state.HasHistory history) (id : RowId) :
    state.get? id = lastWith id history := by
  rw [h.eq_putAll, get?_putAll]
  exact Option.or_none

/-- Just the rows that were never written are not there. -/
theorem HasHistory.get?_eq_none_iff (h : state.HasHistory history) :
    state.get? id = none ↔ id ∉ history.map Row.id := by
  simp [h.get?_eq, lastWith]

/-- The mark after rows were written is the timestamp of the last one. -/
theorem mark_putAll (state : ScopeState) (rows : List Row) :
    (state.putAll rows).mark = ((rows.map Row.modifiedAt).getLast?).getD state.mark := by
  induction rows generalizing state with
  | nil => rfl
  | cons row rest ih =>
    rw [putAll_cons, ih, List.map_cons, List.getLast?_cons, mark_put]
    rfl

end ScopeState

namespace SyncTables

variable {limits : Limits} {store : Store} {scope other : Scope} {now : Timestamp}
  {history : List Row}

/-- The rows that a call writes, in the order of writing. A call that reads writes none, and neither
does one that fails. -/
def rowsWritten (limits : Limits) (store : Store) (scope : Scope) (now : Timestamp)
    (call : SyncCall) : List Row :=
  match call.script? with
  | none => []
  | some script => loggedRows (store.guarded (call.check limits now) fun store =>
      store.transact scope now script.logged.run).1

/-- A call that writes fails, writes no rows and leaves the state as it was, or it has passed its
check, and the run of its script tells the rows written and makes the state. -/
theorem perform_script_cases (h : store.Sound) {call : SyncCall} {script : Script SyncReply}
    (hscript : call.script? = some script) (limits : Limits) (scope : Scope) (now : Timestamp) :
    (∃ e, (perform limits store scope now call).1 = .error e ∧
      rowsWritten limits store scope now call = [] ∧
      (perform limits store scope now call).2.state scope = store.state scope) ∨
    ∃ reply txn, (perform limits store scope now call).1 = .ok reply ∧
      call.check limits now = .ok () ∧
      script.logged.run (.start (store.table scope) now) =
        .ok ((reply, rowsWritten limits store scope now call), txn) ∧
      (perform limits store scope now call).2.state scope = txn.state := by
  rw [perform_of_script hscript, rowsWritten, hscript]
  dsimp only
  -- A failure may be one of the check or one of the script.
  cases call.check limits now with
  | error e => exact .inl ⟨e, rfl, rfl, rfl⟩
  | ok _ =>
    simp only [Store.guarded, Store.transact, Script.run_eq_run_logged script]
    have hstart := Transaction.sound_start (h scope) now
    cases hrun : script.logged.run (.start (store.table scope) now) with
    | error e => exact .inl ⟨e, rfl, rfl, Store.state_settle_self store scope (h scope)⟩
    | ok told =>
      obtain ⟨⟨reply, rows⟩, txn⟩ := told
      obtain ⟨-, hsound, -⟩ := hstart.run_logged hrun
      refine .inr ⟨reply, txn, rfl, trivial, rfl, ?_⟩
      show (store.settle scope txn.commit).state scope = txn.state
      rw [Store.state_settle_self store scope hsound.commit, hsound.state_commit]

/-- A call puts the rows that it writes, and these are fresh. -/
theorem state_perform (h : store.Sound) (call : SyncCall) :
    (store.state scope).Fresh (rowsWritten limits store scope now call) ∧
      (perform limits store scope now call).2.state scope =
        (store.state scope).putAll (rowsWritten limits store scope now call) := by
  cases hscript : call.script? with
  | none =>
    rw [rowsWritten, hscript, perform_of_reads hscript]
    exact ⟨ScopeState.fresh_nil, rfl⟩
  | some script =>
    rcases perform_script_cases h hscript limits scope now with
      ⟨e, -, hrows, hstate⟩ | ⟨reply, txn, -, -, hrun, hstate⟩
    · rw [hrows, hstate]
      exact ⟨ScopeState.fresh_nil, rfl⟩
    · obtain ⟨hfresh, -, hput⟩ := (Transaction.sound_start (h scope) now).run_logged hrun
      exact ⟨hfresh, hstate.trans hput⟩

/-- A call on another scope leaves the state of a scope as it is. -/
theorem state_perform_of_ne (h : store.Sound) (hother : other ≠ scope) (call : SyncCall) :
    (perform limits store other now call).2.state scope = store.state scope :=
  (follows_perform h call).others scope hother.symm

/-- The stores that are reached by calls on any scopes at any times, with the rows that were written
to one of the scopes. -/
inductive Run (limits : Limits) (scope : Scope) : Store → List Row → Prop
  | start : Run limits scope ∅ []
  | call {store : Store} {history : List Row} (now : Timestamp) (call : SyncCall)
    (hrun : Run limits scope store history) :
    Run limits scope (perform limits store scope now call).2
      (history ++ rowsWritten limits store scope now call)
  | elsewhere {store : Store} {history : List Row} {other : Scope} (hother : other ≠ scope)
    (now : Timestamp) (call : SyncCall) (hrun : Run limits scope store history) :
    Run limits scope (perform limits store other now call).2 history

/-- A run is made of calls, whatever is told of them. -/
theorem Run.reachable (hrun : Run limits scope store history) : Reachable limits store := by
  induction hrun with
  | start => exact .refl
  | call now call _ ih => exact .call scope now call ih
  | elsewhere hother now call _ ih => exact .call _ now call ih

/-- The state of the scope is what the rows written to it leave. -/
theorem Run.hasHistory (hrun : Run limits scope store history) :
    (store.state scope).HasHistory history := by
  induction hrun with
  | start => exact ScopeState.hasHistory_initial
  | call now call hrun ih =>
    obtain ⟨hfresh, hstate⟩ := state_perform (sound_of_reachable hrun.reachable) call
    rw [hstate]
    exact ih.append hfresh
  | elsewhere hother now call hrun ih =>
    rw [state_perform_of_ne (sound_of_reachable hrun.reachable) hother call]
    exact ih

/-- The rows written to the sample store. -/
def sampleHistory : List Row :=
  [⟨"a", sampleNote "first", 1000, false⟩, ⟨"b", sampleNote "other", 2000, false⟩]

theorem run_sampleStore : Run {} sampleScope sampleStore sampleHistory :=
  .call 2000 (.put "b" (sampleNote "other")) (.call 1000 (.put "a" (sampleNote "first")) .start)

end SyncTables

end RowSync
