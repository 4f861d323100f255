import RowSync.Database.Local
import RowSync.Database.Sync
import RowSync.Proofs.Database.Rows
import RowSync.Proofs.Database.Session

/-!
# Rollback

A session is all or nothing (`Database.AllOrNothing`) if the tables are those of before when it
fails. This asks nothing of the database, which may be out of reach, fail at any statement, or hold
columns that cannot be read. Sessions that read do so with statements that leave the tables as they
are (`ReadsOnly`), a transaction is rolled back if it fails, and a call on a local table writes with
one statement at most.
-/

namespace RowSync.Database

variable {db db' : Database} {scope : Scope} {α β γ : Type} {part : Tables → γ}

/-- The session leaves a part of the tables as it is. -/
def Keeps (part : Tables → γ) (session : Session α) : Prop :=
  ∀ db, part (session db).2.tables = part db.tables

/-- The session leaves the tables as they are. -/
abbrev ReadsOnly (session : Session α) : Prop := Keeps (fun tables => tables) session

/-- A session that fails leaves the tables as they were. -/
def AllOrNothing (session : Session α) : Prop :=
  ∀ db e, (session db).1 = .error e → (session db).2.tables = db.tables

/-! ## Statements -/

/-- A statement that is run fails and leaves the tables as they are, or it returns and does what its
evaluation does. -/
theorem run_cases (statement : Statement α) (db : Database) :
    (∃ e db', run statement db = (.error e, db') ∧ db'.tables = db.tables) ∨
      ∃ db', run statement db = (.ok (statement.eval db.tables).1, db') ∧
        db'.tables = (statement.eval db.tables).2 := by
  by_cases hfails : !db.isReachable || statement.hasNul
  · exact .inl ⟨.database, db, by simp [run, hfails], rfl⟩
  · -- Looking for a fault changes the fault that is left, and not the tables.
    have hmeet : (db.meetFault statement.text).2.tables = db.tables := by
      rw [meetFault]
      split <;> rfl
    rw [run, if_neg hfails]
    split <;> rename_i after hfault
    · rw [hfault] at hmeet
      exact .inl ⟨.database, after, rfl, hmeet⟩
    · have htables : after.tables = db.tables := by rwa [hfault] at hmeet
      exact .inr ⟨_, by rw [htables], rfl⟩

/-- A statement that fails leaves the tables as they were. -/
theorem allOrNothing_run (statement : Statement α) : AllOrNothing (run statement) := by
  intro db e he
  rcases run_cases statement db with ⟨_, db', hrun, htables⟩ | ⟨db', hrun, -⟩
  · rw [hrun]
    exact htables
  · rw [hrun] at he
    cases he

/-- A statement keeps what its evaluation keeps. -/
theorem keeps_run {statement : Statement α}
    (h : ∀ tables, part (statement.eval tables).2 = part tables) : Keeps part (run statement) := by
  intro db
  rcases run_cases statement db with ⟨_, db', hrun, htables⟩ | ⟨db', hrun, htables⟩
  · rw [hrun]
    exact congrArg part htables
  · rw [hrun]
    exact (congrArg part htables).trans (h db.tables)

/-! ## Sessions -/

theorem keeps_pure (value : α) : Keeps part (pure value) := fun _ => rfl

theorem keeps_throw (e : CallError) : Keeps part (throw e : Session α) := fun _ => rfl

theorem keeps_check (outcome : Except SyncError α) : Keeps part (check outcome) := by
  cases outcome with
  | ok value => exact keeps_pure value
  | error e => exact keeps_throw _

/-- A session that leaves the tables as they are keeps every part of them. -/
theorem ReadsOnly.keeps {session : Session α} (h : ReadsOnly session) (part : Tables → γ) :
    Keeps part session := fun db => congrArg part (h db)

/-- Sessions one after the other keep what each of them keeps. -/
theorem Keeps.bind {first : Session α} {next : α → Session β} (h : Keeps part first)
    (hnext : ∀ value, Keeps part (next value)) : Keeps part (first >>= next) := by
  intro db
  have hfirst := h db
  rcases bind_cases first next db with ⟨e, db', hrun, hbind⟩ | ⟨value, db', hrun, hbind⟩
  · rw [hrun] at hfirst
    rw [hbind]
    exact hfirst
  · rw [hrun] at hfirst
    rw [hbind, hnext value db']
    exact hfirst

theorem ReadsOnly.allOrNothing {session : Session α} (h : ReadsOnly session) :
    AllOrNothing session := fun db _ _ => h db

/-- What is all or nothing stays so after reads. -/
theorem ReadsOnly.allOrNothing_bind {first : Session α} {next : α → Session β} (h : ReadsOnly first)
    (hnext : ∀ value, AllOrNothing (next value)) : AllOrNothing (first >>= next) := by
  intro db e he
  have hfirst := h db
  rcases bind_cases first next db with ⟨e', db', hrun, hbind⟩ | ⟨value, db', hrun, hbind⟩
  · rw [hrun] at hfirst
    rw [hbind]
    exact hfirst
  · rw [hrun] at hfirst
    rw [hbind] at he ⊢
    exact (hnext value db' e he).trans hfirst

/-- What is all or nothing stays so if its result is told as something else. -/
theorem AllOrNothing.map {session : Session α} (h : AllOrNothing session) (f : α → β) :
    AllOrNothing (session >>= fun value => pure (f value)) := by
  intro db e he
  rcases bind_cases session (fun value => pure (f value)) db with
    ⟨e', db', hrun, hbind⟩ | ⟨value, db', hrun, hbind⟩
  · have htables := h db e' (by rw [hrun])
    rw [hrun] at htables
    rw [hbind]
    exact htables
  · -- Telling the result does not fail.
    rw [hbind] at he
    cases he

/-- A transaction fails and leaves the tables as they were, or its body succeeds on the same tables
and leaves those of after. -/
theorem transaction_cases (body : Session α) (db : Database) :
    (∃ e db', transaction body db = (.error e, db') ∧ db'.tables = db.tables) ∨
      ∃ value opened ended db', opened.tables = db.tables ∧ body opened = (.ok value, ended) ∧
        transaction body db = (.ok value, db') ∧ db'.tables = ended.tables := by
  rw [transaction]
  -- Opening and committing leave the tables as they are, if they succeed.
  rcases run_cases .begin db with ⟨e, opened, hbegin, hopened⟩ | ⟨opened, hbegin, hopened⟩
  · exact .inl ⟨e, opened, by rw [hbegin], hopened⟩
  · have htables : opened.tables = db.tables := hopened
    rw [hbegin]
    generalize hbody : body opened = outcome
    obtain ⟨outcome, ended⟩ := outcome
    cases outcome with
    | error e =>
      refine .inl ⟨e, { ended with tables := opened.tables }, ?_, htables⟩
      simp only [bind_of_error hbody]
    | ok value =>
      rcases run_cases .commit ended with ⟨e, last, hcommit, -⟩ | ⟨last, hcommit, hlast⟩
      · have hended : (body >>= fun result => run .commit >>= fun _ => pure result : Session α)
            opened = (.error e, last) := by
          rw [bind_of_ok hbody, bind_of_error hcommit]
        refine .inl ⟨e, { last with tables := opened.tables }, ?_, htables⟩
        simp only [hended]
      · have hended : (body >>= fun result => run .commit >>= fun _ => pure result : Session α)
            opened = (.ok value, last) := by
          rw [bind_of_ok hbody, bind_of_ok hcommit]
          rfl
        refine .inr ⟨value, opened, ended, last, htables, hbody, ?_, hlast⟩
        simp only [hended]

/-- A transaction is all or nothing, whatever is done in it. -/
theorem allOrNothing_transaction (body : Session α) : AllOrNothing (transaction body) := by
  intro db e he
  rcases transaction_cases body db with ⟨_, db', hrun, htables⟩ | ⟨_, _, _, db', -, -, hrun, -⟩
  · rw [hrun]
    exact htables
  · rw [hrun] at he
    cases he

/-- A transaction keeps what is kept by what is done in it. -/
theorem Keeps.transaction {body : Session α} (h : Keeps part body) :
    Keeps part (transaction body) := by
  intro db
  rcases transaction_cases body db with
    ⟨_, db', hrun, htables⟩ | ⟨value, opened, ended, db', hopened, hbody, hrun, hended⟩
  · rw [hrun]
    exact congrArg part htables
  · have hkept := h opened
    rw [hbody] at hkept
    rw [hrun]
    exact (congrArg part hended).trans (hkept.trans (congrArg part hopened))

/-! ## Reads -/

theorem readsOnly_readRows (rows : List (RowId × StoredRow)) : ReadsOnly (readRows rows) := by
  induction rows with
  | nil => exact keeps_pure _
  | cons entry rest ih =>
    obtain ⟨id, stored⟩ := entry
    rw [readRows]
    split
    · exact ih.bind fun _ => keeps_pure _
    · exact keeps_throw _

theorem readsOnly_readLocalRows (rows : List (RowId × String)) :
    ReadsOnly (readLocalRows rows) := by
  induction rows with
  | nil => exact keeps_pure _
  | cons entry rest ih =>
    obtain ⟨id, text⟩ := entry
    rw [readLocalRows]
    split
    · exact ih.bind fun _ => keeps_pure _
    · exact keeps_throw _

/-- A statement that lists columns, and then reads them. -/
theorem readsOnly_run_readRows {statement : Statement (List (RowId × StoredRow))}
    (h : ∀ tables, (statement.eval tables).2 = tables) :
    ReadsOnly (run statement >>= readRows) :=
  (keeps_run h).bind readsOnly_readRows

theorem readsOnly_getRow? (scope : Scope) (id : RowId) : ReadsOnly (getRow? scope id) :=
  (keeps_run fun _ => rfl).bind fun _ => (readsOnly_readRows _).bind fun _ => keeps_pure _

theorem readsOnly_getLive (scope : Scope) (id : RowId) : ReadsOnly (getLive scope id) := by
  refine (keeps_check _).bind fun _ => (readsOnly_getRow? scope id).bind fun row => ?_
  split
  · exact keeps_pure _
  · exact keeps_throw _

theorem readsOnly_changesAfter (scope : Scope) (time : Timestamp) :
    ReadsOnly (changesAfter scope time) :=
  readsOnly_run_readRows fun _ => rfl

theorem readsOnly_liveRows (scope : Scope) : ReadsOnly (liveRows scope) :=
  readsOnly_run_readRows fun _ => rfl

theorem readsOnly_snapshot (scope : Scope) : ReadsOnly (snapshot scope) := by
  have hmark : ReadsOnly (highWater scope) :=
    (keeps_run fun _ => rfl).bind fun _ => keeps_pure _
  refine Keeps.transaction ((keeps_run fun _ => rfl).bind fun _ => hmark.bind fun _ => ?_)
  exact (readsOnly_liveRows scope).bind fun _ => keeps_pure _

/-! ## Calls on local tables -/

/-- Deleting a local row that does not exist leaves the tables as they are. -/
theorem eval_deleteLocalRow_of_zero {tables : Tables} {id : RowId}
    (h : ((Statement.deleteLocalRow scope id).eval tables).1 = 0) :
    ((Statement.deleteLocalRow scope id).eval tables).2 = tables := by
  have hnone : tables.localRows.contains (.ofScope scope id) = false := by
    simp only [Statement.eval] at h
    split at h
    · cases h
    · exact Bool.eq_false_iff.2 ‹_›
  have hget : tables.localRows.get? (.ofScope scope id) = none := by
    rwa [OrderedMap.contains, Option.isSome_eq_false_iff, Option.isNone_iff_eq_none] at hnone
  have herase : tables.localRows.erase (.ofScope scope id) = tables.localRows := by
    refine OrderedMap.ext_get? fun key => ?_
    rw [OrderedMap.get?_erase]
    split
    · rename_i heq
      rw [heq, hget]
    · rfl
  simp only [Statement.eval, herase]

/-- Removing a local row is all or nothing. -/
theorem allOrNothing_deleteLocal (scope : Scope) (id : RowId) :
    AllOrNothing (deleteLocal scope id) := by
  refine ReadsOnly.allOrNothing_bind (keeps_check _) fun _ => ?_
  intro db e he
  -- The statement fails, or it tells that there was no row, or there is no failure.
  rcases run_cases (.deleteLocalRow scope id) db with ⟨_, db', hrun, htables⟩ | ⟨db', hrun, htables⟩
  · rw [bind_of_error hrun]
    exact htables
  · rw [bind_of_ok hrun] at he ⊢
    by_cases hzero : ((Statement.deleteLocalRow scope id).eval db.tables).1 = 0
    · rw [if_pos hzero]
      exact htables.trans (eval_deleteLocalRow_of_zero hzero)
    · rw [if_neg hzero] at he
      cases he

theorem readsOnly_localRows (scope : Scope) : ReadsOnly (localRows scope) :=
  (keeps_run fun _ => rfl).bind readsOnly_readLocalRows

theorem readsOnly_localRow (scope : Scope) (id : RowId) : ReadsOnly (localRow scope id) := by
  refine (keeps_check _).bind fun _ => (keeps_run fun _ => rfl).bind fun _ =>
    (readsOnly_readLocalRows _).bind fun rows => ?_
  split
  · exact keeps_pure _
  · exact keeps_throw _

/-- Every call on a local table is all or nothing. -/
theorem allOrNothing_performLocal (scope : Scope) (call : LocalCall) :
    AllOrNothing (performLocal scope call) := by
  cases call with
  | rows => exact (readsOnly_localRows scope).allOrNothing.map LocalReply.rows
  | row id => exact (readsOnly_localRow scope id).allOrNothing.map LocalReply.row
  | put row =>
    have hput : AllOrNothing (putLocal scope row) :=
      ReadsOnly.allOrNothing_bind (keeps_check _) fun _ =>
        (allOrNothing_run _).map fun _ => row
    exact hput.map LocalReply.row
  | delete id => exact (allOrNothing_deleteLocal scope id).map fun _ => LocalReply.done

/-- A call on a local table leaves the rows of all sync tables as they are. -/
theorem keeps_syncRows_performLocal (scope : Scope) (call : LocalCall) :
    Keeps Tables.syncRows (performLocal scope call) := by
  cases call with
  | rows => exact ((readsOnly_localRows scope).keeps _).bind fun _ => keeps_pure _
  | row id => exact ((readsOnly_localRow scope id).keeps _).bind fun _ => keeps_pure _
  | put row =>
    have hput : Keeps Tables.syncRows (putLocal scope row) :=
      (keeps_check _).bind fun _ => (keeps_run fun _ => rfl).bind fun _ => keeps_pure _
    exact hput.bind fun _ => keeps_pure _
  | delete id =>
    have hdelete : Keeps Tables.syncRows (deleteLocal scope id) := by
      refine (keeps_check _).bind fun _ => (keeps_run fun _ => rfl).bind fun count => ?_
      split
      · exact keeps_throw _
      · exact keeps_pure _
    exact hdelete.bind fun _ => keeps_pure _

end RowSync.Database
