import RowSync.Proofs.Database.Script
import RowSync.Proofs.Database.Writers
import RowSync.Proofs.History

/-!
# Histories in a Database

The rows written to a scope of a database. Whatever happens in between, be it that the database is
out of reach, that a statement fails or that a row cannot be read, every run of calls makes a
history of each scope, and the database records the state that the history leaves
(`Database.Run.records`). Nothing is asked of what is written: a payload that reads back as another
one is as good as any, since no timestamp depends on payloads.
-/

namespace RowSync

namespace Database

variable {limits : Limits} {db db' : Database} {scope other : Scope} {state : ScopeState}
  {now : Timestamp} {row : Row} {history : List Row} {α β : Type}

/-! ## What a session did that succeeded -/

/-- A session that reads leaves the tables as they are when it succeeds. -/
theorem ReadsOnly.tables_eq {session : Session α} (h : ReadsOnly session) {value : α}
    (hread : session db = (.ok value, db')) : db'.tables = db.tables := by
  have htables := h db
  rwa [hread] at htables

/-- A statement that returned did what its evaluation does. -/
theorem run_eq_ok {statement : Statement α} {value : α}
    (h : run statement db = (.ok value, db')) : statement.eval db.tables = (value, db'.tables) := by
  rcases run_cases statement db with ⟨e, after, hrun, -⟩ | ⟨after, hrun, htables⟩
  · rw [hrun] at h
    cases h
  · rw [hrun] at h
    cases h
    rw [htables]

/-- A statement that returned has no U+0000. -/
theorem hasNul_of_run_eq_ok {statement : Statement α} {value : α}
    (h : run statement db = (.ok value, db')) : statement.hasNul = false := by
  refine Bool.eq_false_iff.2 fun hnul => ?_
  rw [run_of_hasNul hnul] at h
  cases h

/-- An operation that is not refused goes on with the same database. -/
theorem check_eq_ok {outcome : Except SyncError α} {value : α}
    (h : check outcome db = (.ok value, db')) : outcome = .ok value ∧ db' = db := by
  cases outcome with
  | ok result =>
    cases h
    exact ⟨rfl, rfl⟩
  | error e => cases h

/-- A timestamp that was assigned is the one of the clock. -/
theorem tick_eq_ok {writer ticked : Writer} {claim : Option Timestamp} {time : Timestamp}
    (h : writer.tick claim db = (.ok (time, ticked), db')) :
    ∃ clock, writer.clock.tick (claim.getD writer.now) = .ok (time, clock) ∧
      ticked = ⟨writer.scope, clock, writer.now⟩ ∧ db' = db := by
  cases htick : writer.clock.tick (claim.getD writer.now) with
  | error e =>
    rw [tick_of_error htick] at h
    cases h
  | ok told =>
    have hticked : writer.tick claim db = (.ok (told.1, ⟨writer.scope, told.2, writer.now⟩), db) :=
      tick_of_ok htick db
    rw [hticked] at h
    cases h
    exact ⟨told.2, rfl, rfl, rfl⟩

/-- A row that was stored was written. -/
theorem store_eq_ok {writer writer' : Writer} {stored : Row}
    (h : writer.store row db = (.ok (stored, writer'), db')) :
    stored = row ∧ writer' = writer ∧
      db'.tables = ((Statement.writeRow writer.scope row).eval db.tables).2 := by
  obtain ⟨_, between, hrun, h⟩ := bind_eq_ok h
  cases h
  exact ⟨rfl, rfl, (congrArg Prod.snd (run_eq_ok hrun)).symm⟩

/-! ## Scripts -/

/-- A session with a writer, from the state that the tables record to the one after some rows were
put, which could be written. The writer goes on from there, and other scopes are as before. -/
structure Wrote (scope : Scope) (now : Timestamp) (state : ScopeState) (db : Database)
    (rows : List Row) (writer : Writer) (db' : Database) : Prop where
  /-- The rows could be written. -/
  fresh : state.Fresh rows
  /-- The clock of the writer is the mark. -/
  writer_eq : writer = .ofState scope now (state.putAll rows)
  /-- The tables record the state after the rows. -/
  records : Records db'.tables scope (state.putAll rows)
  /-- All other scopes are as before. -/
  others : SameElse scope db db'

/-- A session that leaves the tables as they are wrote nothing. -/
theorem Records.wrote_nil (h : Records db.tables scope state) (now : Timestamp)
    (htables : db'.tables = db.tables) :
    Wrote scope now state db [] (.ofState scope now state) db' where
  fresh := ScopeState.fresh_nil
  writer_eq := rfl
  records := htables.symm ▸ h
  others := by
    intro other _
    rw [htables]

/-- Sessions one after the other write rows one after the other. -/
theorem Wrote.append {rows later : List Row} {writer writer' : Writer} {db'' : Database}
    (h : Wrote scope now state db rows writer db')
    (hlater : Wrote scope now (state.putAll rows) db' later writer' db'') :
    Wrote scope now state db (rows ++ later) writer' db'' where
  fresh := ScopeState.fresh_append.2 ⟨h.fresh, hlater.fresh⟩
  writer_eq := by rw [ScopeState.putAll_append, hlater.writer_eq]
  records := by
    rw [ScopeState.putAll_append]
    exact hlater.records
  others := h.others.trans hlater.others

/-- Storing a row at the timestamp that the writer assigned writes the row. -/
theorem Records.wrote_store (h : Records db.tables scope state) {seed time : Timestamp}
    {clock : HybridClock} (htick : HybridClock.tick ⟨state.mark⟩ seed = .ok (time, clock))
    (htime : row.modifiedAt = time) {stored : Row} {writer : Writer} {middle : Database}
    (hmiddle : middle.tables = db.tables)
    (hstore : Writer.store ⟨scope, clock, now⟩ row middle = (.ok (stored, writer), db')) :
    Wrote scope now state db [stored] writer db' := by
  obtain ⟨rfl, rfl, htables⟩ := store_eq_ok hstore
  obtain ⟨hlt, hle, hclock⟩ := HybridClock.tick_eq_ok htick
  rw [← htime] at hlt hle hclock
  refine ⟨ScopeState.fresh_cons.2 ⟨hlt, hle, ScopeState.fresh_nil⟩, ?_, ?_, ?_⟩
  · -- The clock shows the timestamp of the row, which is the mark of the state with it.
    show (⟨scope, clock, now⟩ : Writer) = ⟨scope, ⟨stored.modifiedAt⟩, now⟩
    rw [← hclock]
  · rw [htables, hmiddle]
    exact h.writeRow hlt hle
  · intro other hother
    rw [htables, hmiddle]
    exact scopeRows_writeRow_of_ne hother db.tables stored

/-- An operation that succeeds writes the rows that it tells. -/
theorem Records.wrote_operation (h : Records db.tables scope state) {operation : Operation α}
    {result : α} {writer : Writer}
    (hwrite : operation.write scope (.ofState scope now state) db = (.ok (result, writer), db')) :
    Wrote scope now state db (operation.written result) writer db' := by
  -- The operations that read tell what they read together with the writer as it was.
  cases operation with
  | row id =>
    obtain ⟨_, between, hread, hwrite⟩ := bind_eq_ok hwrite
    cases hwrite
    exact h.wrote_nil now ((readsOnly_getRow? scope id).tables_eq hread)
  | liveIds =>
    obtain ⟨_, between, hread, hwrite⟩ := bind_eq_ok hwrite
    cases hwrite
    exact h.wrote_nil now (congrArg Prod.snd (run_eq_ok hread)).symm
  | changesAfter time =>
    obtain ⟨_, between, hread, hwrite⟩ := bind_eq_ok hwrite
    cases hwrite
    exact h.wrote_nil now ((readsOnly_changesAfter scope time).tables_eq hread)
  | highWater =>
    cases hwrite
    exact h.wrote_nil now rfl
  | upsert id payload claim =>
    obtain ⟨⟨time, ticked⟩, between, hticked, hrest⟩ := bind_eq_ok hwrite
    obtain ⟨clock, htick, rfl, rfl⟩ := tick_eq_ok hticked
    obtain ⟨found, middle, hread, hstore⟩ := bind_eq_ok hrest
    have hmiddle := (readsOnly_getRow? _ id).tables_eq hread
    -- A row that is there is stored anew, one that is not is created.
    cases found with
    | some before => exact h.wrote_store htick rfl hmiddle hstore
    | none => exact h.wrote_store htick rfl hmiddle hstore
  | delete id claim =>
    obtain ⟨found, middle, hread, hrest⟩ := bind_eq_ok hwrite
    have hmiddle := (readsOnly_getRow? _ id).tables_eq hread
    cases found with
    | none => cases hrest
    | some before =>
      obtain ⟨⟨time, ticked⟩, between, hticked, hstore⟩ := bind_eq_ok hrest
      obtain ⟨clock, htick, rfl, rfl⟩ := tick_eq_ok hticked
      exact h.wrote_store htick rfl hmiddle hstore

/-- A script that succeeds writes the rows that it tells. -/
theorem Records.wrote_script (h : Records db.tables scope state) {script : Script α} {value : α}
    {rows : List Row} {writer : Writer}
    (hwrite : script.logged.write scope (.ofState scope now state) db =
      (.ok ((value, rows), writer), db')) :
    Wrote scope now state db rows writer db' := by
  -- The rows of the first operation are written before those of the rest.
  induction script generalizing db state rows with
  | done value =>
    cases hwrite
    exact h.wrote_nil now rfl
  | refuse cause => cases hwrite
  | step operation next ih =>
    obtain ⟨⟨result, middle⟩, between, hfirst, hwrite⟩ := bind_eq_ok hwrite
    rw [Script.write_bind] at hwrite
    obtain ⟨⟨⟨value', later⟩, last⟩, ended, hrest, hwrite⟩ := bind_eq_ok hwrite
    cases hwrite
    have hoperation := h.wrote_operation hfirst
    rw [hoperation.writer_eq] at hrest
    exact hoperation.append (ih result hoperation.records hrest)

/-- A batch that is applied writes the rows that it returns. -/
theorem Records.wrote_applyAll (h : Records db.tables scope state) {batch : List Mutation}
    {rows : List Row} {writer : Writer}
    (hwrite : (Writer.ofState scope now state).applyAll batch db = (.ok (rows, writer), db')) :
    Wrote scope now state db rows writer db' := by
  have hlogged : (Script.applyAll batch).logged.write scope (.ofState scope now state) db =
      (.ok ((rows, rows), writer), db') := by
    rw [Script.logged_applyAll, Script.write_bind, Script.write_applyAll, bind_of_ok hwrite]
    rfl
  exact h.wrote_script hlogged

/-! ## Calls -/

/-- A writer that was started takes up the mark, and its scope could be locked. -/
theorem Records.start_eq_ok (h : Records db.tables scope state) {writer : Writer}
    (hstart : Writer.start scope now db = (.ok writer, db')) :
    writer = .ofState scope now state ∧ db'.tables = db.tables ∧ scope.IsKept := by
  obtain ⟨_, locked, hlock, hrest⟩ := bind_eq_ok hstart
  obtain ⟨mark, between, hmark, hwriter⟩ := bind_eq_ok hrest
  obtain ⟨time, after, hrun, htime⟩ := bind_eq_ok hmark
  cases hwriter
  cases htime
  -- Locking leaves the tables as they are, so the latest time that was read is the mark.
  have hlocked : locked.tables = db.tables := (congrArg Prod.snd (run_eq_ok hlock)).symm
  have heval := run_eq_ok hrun
  rw [hlocked, h.eval_highWater] at heval
  obtain ⟨rfl, htables⟩ := Prod.ext_iff.1 heval
  rw [timestamp_toInt64 h.sound.mark_le]
  exact ⟨rfl, htables.symm, hasNul_lock.1 (hasNul_of_run_eq_ok hlock)⟩

/-- A transaction with a writer fails and leaves the tables as they were, or its body succeeds with
the writer that was started on the same tables, and leaves those of after. Its scope is kept then.
-/
theorem Records.writing_cases (h : Records db.tables scope state) (now : Timestamp)
    (body : Writer → Session α) :
    (∃ e db', writing scope now body db = (.error e, db') ∧ db'.tables = db.tables) ∨
      ∃ value started ended db', writing scope now body db = (.ok value, db') ∧
        started.tables = db.tables ∧
        body (.ofState scope now state) started = (.ok value, ended) ∧
        db'.tables = ended.tables ∧ scope.IsKept := by
  rcases transaction_cases (Writer.start scope now >>= body) db with
    hfails | ⟨value, opened, ended, db', hopened, hbody, hrun, hended⟩
  · exact .inl hfails
  · obtain ⟨writer, started, hstart, hbody⟩ := bind_eq_ok hbody
    obtain ⟨rfl, hstarted, hscope⟩ := Records.start_eq_ok (hopened.symm ▸ h) hstart
    exact .inr ⟨value, started, ended, db', hrun, hstarted.trans hopened, hbody, hended, hscope⟩

/-- A script done in one transaction fails and leaves the tables as they were, or it succeeds and
writes the rows that it tells. -/
theorem Records.runScript_cases (h : Records db.tables scope state) (now : Timestamp)
    (script : Script α) :
    (∃ e db', runScript scope now script.logged db = (.error e, db') ∧ db'.tables = db.tables) ∨
      ∃ value rows db', runScript scope now script.logged db = (.ok (value, rows), db') ∧
        state.Fresh rows ∧ Records db'.tables scope (state.putAll rows) ∧
        SameElse scope db db' := by
  rcases h.writing_cases now (fun writer =>
      script.logged.write scope writer >>= fun told => pure told.1) with
    hfails | ⟨⟨value, rows⟩, started, ended, db', hrun, hstarted, hbody, hended, -⟩
  · exact .inl hfails
  · refine .inr ⟨value, rows, db', hrun, ?_⟩
    obtain ⟨⟨told, last⟩, written, hwrite, hbody⟩ := bind_eq_ok hbody
    cases hbody
    have hwrote := Records.wrote_script (hstarted.symm ▸ h) hwrite
    refine ⟨hwrote.fresh, hended.symm ▸ hwrote.records, ?_⟩
    intro other hother
    rw [hended, hwrote.others other hother, hstarted]

/-- What a call that writes does, telling the rows that it writes. -/
def performLogged (limits : Limits) (scope : Scope) (now : Timestamp) (call : SyncCall)
    (script : Script SyncReply) : Session (SyncReply × List Row) :=
  check (call.check limits now) >>= fun _ => runScript scope now script.logged

/-- The rows that a call writes, in the order of writing. A call that reads writes none, and neither
does one that fails. -/
def rowsWritten (limits : Limits) (db : Database) (scope : Scope) (now : Timestamp)
    (call : SyncCall) : List Row :=
  match call.script? with
  | none => []
  | some script => loggedRows (performLogged limits scope now call script db).1

/-- A call that writes is done as it is when it tells the rows that it writes. -/
theorem performSync_eq_performLogged {call : SyncCall} {script : Script SyncReply}
    (h : call.script? = some script) : performSync limits scope now call =
      performLogged limits scope now call script >>= fun told => pure told.1 := by
  have hscript : runScript scope now script =
      runScript scope now script.logged >>= fun told => pure told.1 := by
    rw [runScript, runScript, writing, writing, ← transaction_map, bind_assoc]
    simp only [Script.write_eq_write_logged script, bind_assoc, pure_bind]
  rw [performSync_of_script h, performLogged, hscript, bind_assoc]

/-- A call puts the rows that it writes, which are fresh, and leaves all other scopes as they are.
-/
theorem Records.performSync (h : Records db.tables scope state) (limits : Limits)
    (now : Timestamp) (call : SyncCall) :
    state.Fresh (rowsWritten limits db scope now call) ∧
      Records (performSync limits scope now call db).2.tables scope
        (state.putAll (rowsWritten limits db scope now call)) ∧
      SameElse scope db (Database.performSync limits scope now call db).2 := by
  -- A call that leaves the tables as they are puts no rows.
  have hidle {after : Database} (htables : after.tables = db.tables) :
      state.Fresh [] ∧ Records after.tables scope (state.putAll []) ∧ SameElse scope db after := by
    have hwrote := h.wrote_nil now htables
    exact ⟨hwrote.fresh, hwrote.records, hwrote.others⟩
  rw [rowsWritten]
  cases hscript : call.script? with
  | none => exact hidle (readsOnly_performSync hscript db)
  | some script =>
    dsimp only
    rw [performSync_eq_performLogged hscript]
    cases hcheck : call.check limits now with
    | error e =>
      have hlogged : performLogged limits scope now call script db = (.error (.refused e), db) := by
        rw [performLogged, hcheck]
        rfl
      rw [bind_of_error hlogged, hlogged]
      exact hidle rfl
    | ok _ =>
      -- The call passed its check, so it is its script that decides.
      have hlogged : performLogged limits scope now call script =
          runScript scope now script.logged := by
        rw [performLogged, hcheck]
        rfl
      rw [hlogged]
      rcases h.runScript_cases now script with
        ⟨e, db', hrun, htables⟩ | ⟨reply, rows, db', hrun, hwrote⟩
      · rw [bind_of_error hrun, hrun]
        exact hidle htables
      · rw [bind_of_ok hrun, hrun]
        exact hwrote

/-! ## Runs -/

/-- Every scope has a state that the database records. -/
def Sound (db : Database) : Prop := ∀ scope, ∃ state, Records db.tables scope state

/-- Calls on sync tables keep a database sound. -/
theorem Sound.performSync (h : db.Sound) (limits : Limits) (scope : Scope) (now : Timestamp)
    (call : SyncCall) :
    (Database.performSync limits scope now call db).2.Sound := by
  intro other
  obtain ⟨state, hrecords⟩ := h scope
  obtain ⟨-, hafter, hothers⟩ := hrecords.performSync limits now call
  by_cases heq : other = scope
  · subst heq
    exact ⟨_, hafter⟩
  · obtain ⟨state', hother⟩ := h other
    exact ⟨state', hother.of_scopeRows_eq (hothers other heq)⟩

/-- The databases that are reached by calls on any scopes at any times, with the rows that were
written to one of the scopes. At the start there are no rows in sync tables. Local tables may be
called as well, and at any time the database may go out of reach or come back, or get a fault. -/
inductive Run (limits : Limits) (scope : Scope) : Database → List Row → Prop
  | start {db : Database} (hempty : db.tables.syncRows = ∅) : Run limits scope db []
  | call {db : Database} {history : List Row} (now : Timestamp) (call : SyncCall)
    (hrun : Run limits scope db history) :
    Run limits scope (performSync limits scope now call db).2
      (history ++ rowsWritten limits db scope now call)
  | elsewhere {db : Database} {history : List Row} {other : Scope} (hother : other ≠ scope)
    (now : Timestamp) (call : SyncCall) (hrun : Run limits scope db history) :
    Run limits scope (performSync limits other now call db).2 history
  | onLocal {db : Database} {history : List Row} (other : Scope) (call : LocalCall)
    (hrun : Run limits scope db history) : Run limits scope (performLocal other call db).2 history
  | disturb {db : Database} {history : List Row} (isReachable : Bool) (fault : Option Fault)
    (hrun : Run limits scope db history) :
    Run limits scope { db with isReachable, fault } history

/-- A database without rows in sync tables records the state of a scope that was never written. -/
theorem records_initial {tables : Tables} (hempty : tables.syncRows = ∅) (scope : Scope) :
    Records tables scope ScopeState.initial where
  rows := by
    rw [hempty]
    rfl
  sound := ScopeState.sound_initial

/-- In a run every scope has a state that the database records. -/
theorem Run.sound (hrun : Run limits scope db history) : db.Sound := by
  induction hrun with
  | start hempty => exact fun other => ⟨_, records_initial hempty other⟩
  | call now call _ ih => exact ih.performSync limits scope now call
  | elsewhere hother now call _ ih => exact ih.performSync limits _ now call
  | onLocal other call _ ih =>
    intro scope
    obtain ⟨state, hrecords⟩ := ih scope
    have hrows := keeps_syncRows_performLocal other call
    exact ⟨state, hrecords.of_scopeRows_eq (congrArg (scopeRows · scope) (hrows _))⟩
  | disturb isReachable fault _ ih => exact ih

/-- The database records the state that the rows written to the scope leave. -/
theorem Run.records (hrun : Run limits scope db history) :
    ∃ state, Records db.tables scope state ∧ state.HasHistory history := by
  induction hrun with
  | start hempty => exact ⟨_, records_initial hempty scope, ScopeState.hasHistory_initial⟩
  | call now call _ ih =>
    obtain ⟨state, hrecords, hhistory⟩ := ih
    obtain ⟨hfresh, hafter, -⟩ := hrecords.performSync limits now call
    exact ⟨_, hafter, hhistory.append hfresh⟩
  | elsewhere hother now call hrun ih =>
    obtain ⟨state, hrecords, hhistory⟩ := ih
    -- The call is one on the state of its own scope, and leaves that of all others.
    obtain ⟨state', hother'⟩ := hrun.sound _
    obtain ⟨-, -, helse⟩ := hother'.performSync limits now call
    exact ⟨state, hrecords.of_scopeRows_eq (helse scope hother.symm), hhistory⟩
  | onLocal other call _ ih =>
    obtain ⟨state, hrecords, hhistory⟩ := ih
    have hrows := keeps_syncRows_performLocal other call
    exact ⟨state, hrecords.of_scopeRows_eq (congrArg (scopeRows · scope) (hrows _)), hhistory⟩
  | disturb isReachable fault _ ih => exact ih

end Database

end RowSync
