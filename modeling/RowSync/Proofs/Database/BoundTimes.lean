import RowSync.Proofs.Database.History
import RowSync.Proofs.Database.Sync
import RowSync.Proofs.Script.Uses

/-!
# Times Bound to Statements

Timestamps are bound to statements as signed words, which hold those in range unchanged and turn all
others into times before the epoch. A session runs only allowed statements (`Database.RunsOnly`) if
it is put together of such. Every call whose baseline is in range binds timestamps in range only
(`Database.runsOnly_performSync`), whatever edit times it claims and whatever the database holds:
the rows that it stores have timestamps that the clock assigned, which checks them.
-/

namespace RowSync.Database

variable {scope : Scope} {α β : Type}

/-- Every timestamp that is bound to the statement is in range. -/
def Statement.InRange : Statement α → Prop
  | .changesAfter _ time => ∃ base ≤ maxTimestamp, time = base.toInt64
  | .writeRow _ written => written.modifiedAt ≤ maxTimestamp
  | _ => True

/-- The session is put together of allowed statements. One part of it may depend on what another
part returned before, on whatever database. -/
inductive RunsOnly (allowed : ∀ {β : Type}, Statement β → Prop) : {α : Type} → Session α → Prop
  | pure {α : Type} (value : α) : RunsOnly @allowed (pure value : Session α)
  | throw {α : Type} (e : CallError) : RunsOnly @allowed (throw e : Session α)
  | run {α : Type} {statement : Statement α} (h : allowed statement) :
    RunsOnly @allowed (run statement)
  | bind {α β : Type} {first : Session α} {next : α → Session β} (hfirst : RunsOnly @allowed first)
    (hnext : ∀ value db db', first db = (.ok value, db') → RunsOnly @allowed (next value)) :
    RunsOnly @allowed (first >>= next)
  | transaction {α : Type} {body : Session α} (hbegin : allowed .begin) (hcommit : allowed .commit)
    (hbody : RunsOnly @allowed body) : RunsOnly @allowed (transaction body)

section Allowed

variable {allowed : ∀ {β : Type}, Statement β → Prop}

/-- What is told of the result of a session runs no statements. -/
theorem RunsOnly.map {session : Session α} (h : RunsOnly allowed session) (f : α → β) :
    RunsOnly allowed (session >>= fun value => Pure.pure (f value)) :=
  h.bind fun _ _ _ _ => .pure _

theorem runsOnly_check (outcome : Except SyncError α) : RunsOnly allowed (check outcome) := by
  cases outcome with
  | ok value => exact .pure value
  | error e => exact .throw _

theorem runsOnly_readRows (rows : List (RowId × StoredRow)) :
    RunsOnly allowed (readRows rows) := by
  induction rows with
  | nil => exact .pure []
  | cons entry rest ih =>
    obtain ⟨id, stored⟩ := entry
    rw [readRows]
    split
    · exact ih.map _
    · exact .throw _

end Allowed

/-! ## Operations -/

theorem runsOnly_highWater (scope : Scope) : RunsOnly Statement.InRange (highWater scope) :=
  (RunsOnly.run trivial).map _

theorem runsOnly_getRow? (scope : Scope) (id : RowId) :
    RunsOnly Statement.InRange (getRow? scope id) :=
  (RunsOnly.run trivial).bind fun _ _ _ _ => (runsOnly_readRows _).map _

theorem runsOnly_liveRows (scope : Scope) : RunsOnly Statement.InRange (liveRows scope) :=
  (RunsOnly.run trivial).bind fun _ _ _ _ => runsOnly_readRows _

/-- The baseline is bound as it is. -/
theorem runsOnly_changesAfter {time : Timestamp} (htime : time ≤ maxTimestamp) :
    RunsOnly Statement.InRange (changesAfter scope time) :=
  (RunsOnly.run ⟨time, htime, rfl⟩).bind fun _ _ _ _ => runsOnly_readRows _

theorem runsOnly_tick (writer : Writer) (claim : Option Timestamp) :
    RunsOnly Statement.InRange (writer.tick claim) :=
  (runsOnly_check _).map _

theorem runsOnly_store (writer : Writer) {row : Row} (htime : row.modifiedAt ≤ maxTimestamp) :
    RunsOnly Statement.InRange (writer.store row) := by
  have hrun : RunsOnly Statement.InRange (run (.writeRow writer.scope row)) := .run htime
  exact hrun.map _

/-- A timestamp that was assigned is in range. -/
theorem le_of_tick_eq_ok {writer ticked : Writer} {claim : Option Timestamp} {time : Timestamp}
    {db db' : Database} (h : writer.tick claim db = (.ok (time, ticked), db')) :
    time ≤ maxTimestamp := by
  obtain ⟨clock, htick, -, -⟩ := tick_eq_ok h
  exact (HybridClock.tick_eq_ok htick).2.1

/-- A writer stores rows with the timestamps that it assigned. -/
theorem runsOnly_upsert (writer : Writer) (id : RowId) (payload : Payload)
    (claim : Option Timestamp) : RunsOnly Statement.InRange (writer.upsert id payload claim) := by
  refine (runsOnly_tick writer claim).bind fun told db db' htick => ?_
  obtain ⟨time, ticked⟩ := told
  have htime := le_of_tick_eq_ok htick
  refine (runsOnly_getRow? _ id).bind fun found _ _ _ => ?_
  -- The row is stored with that time whether it was there or not.
  cases found with
  | some row => exact runsOnly_store ticked htime
  | none => exact runsOnly_store ticked htime

theorem runsOnly_delete (writer : Writer) (id : RowId) (claim : Option Timestamp) :
    RunsOnly Statement.InRange (writer.delete id claim) := by
  refine (runsOnly_getRow? _ id).bind fun found _ _ _ => ?_
  cases found with
  | none => exact .throw _
  | some row =>
    refine (runsOnly_tick writer claim).bind fun told db db' htick => ?_
    obtain ⟨time, ticked⟩ := told
    exact runsOnly_store ticked (le_of_tick_eq_ok htick)

end RowSync.Database

namespace RowSync

/-! ## Calls -/

open Database

variable {scope : Scope} {limits : Limits} {now : Timestamp} {α : Type}

/-- The time after which an operation reads changes is in range. -/
def Operation.InRange : Operation α → Prop
  | .changesAfter time => time ≤ maxTimestamp
  | _ => True

/-- The script of a call with a baseline in range reads changes after times in range. -/
theorem SyncCall.uses_inRange {call : SyncCall} {script : Script SyncReply}
    (hscript : call.script? = some script) (hrange : call.InRange) :
    script.Uses Operation.InRange := by
  refine (SyncCall.uses_script hscript).imp fun {_ operation} hmay => ?_
  cases operation with
  | changesAfter time =>
    -- The time is the baseline of the call.
    have hbase : call.base? = some time := hmay
    cases call with
    | changesSince base | sync base batch =>
      cases hbase
      exact hrange
    | _ => cases hbase
  | _ => trivial

namespace Database

theorem runsOnly_operation {operation : Operation α} (h : operation.InRange) (writer : Writer) :
    RunsOnly Statement.InRange (operation.write scope writer) := by
  cases operation with
  | row id => exact (runsOnly_getRow? scope id).map _
  | liveIds =>
    have hrun : RunsOnly Statement.InRange (run (.liveIds scope)) := .run trivial
    exact hrun.map _
  | changesAfter time => exact (runsOnly_changesAfter h).map _
  | highWater => exact .pure _
  | upsert id payload claim => exact runsOnly_upsert writer id payload claim
  | delete id claim => exact runsOnly_delete writer id claim

theorem runsOnly_script {script : Script α} (h : script.Uses Operation.InRange) (writer : Writer) :
    RunsOnly Statement.InRange (script.write scope writer) := by
  induction script generalizing writer with
  | done value => exact .pure _
  | refuse cause => exact .throw _
  | step operation next ih =>
    exact (runsOnly_operation h.1 writer).bind fun told _ _ _ => ih told.1 (h.2 told.1) told.2

theorem runsOnly_start (scope : Scope) (now : Timestamp) :
    RunsOnly Statement.InRange (Writer.start scope now) := by
  have hlock : RunsOnly Statement.InRange (run (.lock .exclusive scope)) := .run trivial
  exact hlock.bind fun _ _ _ _ => (runsOnly_highWater scope).map _

theorem runsOnly_snapshot (scope : Scope) : RunsOnly Statement.InRange (snapshot scope) := by
  have hlock : RunsOnly Statement.InRange (run (.lock .shared scope)) := .run trivial
  refine .transaction trivial trivial (hlock.bind fun _ _ _ _ => ?_)
  exact (runsOnly_highWater scope).bind fun _ _ _ _ => (runsOnly_liveRows scope).map _

theorem runsOnly_getLive (scope : Scope) (id : RowId) :
    RunsOnly Statement.InRange (getLive scope id) := by
  refine (runsOnly_check _).bind fun _ _ _ _ =>
    (runsOnly_getRow? scope id).bind fun found _ _ _ => ?_
  split
  · exact .pure _
  · exact .throw _

/-- A call with a baseline in range binds timestamps in range only. -/
theorem runsOnly_performSync (limits : Limits) (scope : Scope) (now : Timestamp) {call : SyncCall}
    (hrange : call.InRange) :
    RunsOnly Statement.InRange (performSync limits scope now call) := by
  cases hscript : call.script? with
  | some script =>
    have hwrites : RunsOnly Statement.InRange (runScript scope now script) := by
      refine .transaction trivial trivial ((runsOnly_start scope now).bind fun writer _ _ _ => ?_)
      exact (runsOnly_script (SyncCall.uses_inRange hscript hrange) writer).map _
    rw [performSync_of_script hscript]
    exact (runsOnly_check _).bind fun _ _ _ _ => hwrites
  | none =>
    cases call with
    | rows => exact (runsOnly_liveRows scope).map _
    | row id => exact (runsOnly_getLive scope id).map _
    | snapshot => exact (runsOnly_snapshot scope).map _
    | changesSince base => exact ((runsOnly_changesAfter hrange).map _).map _
    | put | delete | sync | push | replace | putIfRecent | deleteIfRecent => cases hscript

end Database

end RowSync
