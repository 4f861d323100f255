import RowSync.Backend
import RowSync.Proofs.Database.Rollback
import RowSync.Proofs.Names
import RowSync.Proofs.ScopeState.Writes

/-!
# Accepted Row Ids

A valid row id is accepted wherever it is given as an argument: over both backends, getting and
deleting one row of a sync table or of a local table may fail, but does not refuse a valid id
(`Backend.accepts_of_isValid`). The row may be missing, the timestamps may have run out, or the
database may fail.
-/

namespace RowSync

variable {scope : Scope} {id : RowId} {α β : Type}

/-- The failure is told to be the fault of the arguments. -/
def CallError.BlamesArgument : CallError → Prop
  | .database => False
  | .refused cause => cause.kind = .invalidArgument

/-- The failure of the database is not. -/
theorem CallError.not_blamesArgument_database : ¬CallError.database.BlamesArgument := fun h => h

/-! ## Stores -/

namespace Store

variable {store : Store} {e : SyncError}

theorem get_eq_error (h : id.IsValid) (hget : store.get scope id = .error e) :
    e = .rowNotFound id := by
  rw [get, checkRowId_eq_ok_iff.2 h] at hget
  cases hlive : (store.table scope).getLive? id with
  | some row => simp [hlive, bind, Except.bind] at hget
  | none => simpa [hlive, bind, Except.bind] using hget.symm

/-- A row is not deleted only if it is not there or the timestamps have run out. -/
theorem kind_of_delete_eq_error (h : id.IsValid) {now : Timestamp}
    (hdelete : (store.delete scope now id).1 = .error e) : e.kind ≠ .invalidArgument := by
  rw [delete, checkRowId_eq_ok_iff.2 h, guarded, transact] at hdelete
  split at hdelete
  · cases hdelete
  · rename_i cause hfails
    cases hdelete
    rw [Transaction.delete] at hfails
    split at hfails
    · cases hfails
      nofun
    · -- Of the rest only the timestamp may be refused.
      rcases bind_eq_error_iff.1 hfails with htick | ⟨_, -, hstage⟩
      · rcases bind_eq_error_iff.1 htick with hclock | ⟨_, -, hpure⟩
        · rw [HybridClock.tick_eq_error hclock]
          nofun
        · cases hpure
      · cases hstage

theorem remove_eq_error (h : id.IsValid) (hremove : (store.remove scope id).1 = .error e) :
    e = .rowNotFound id := by
  rw [remove, checkRowId_eq_ok_iff.2 h, guarded] at hremove
  split at hremove
  · cases hremove
    rfl
  · dsimp only at hremove
    split at hremove
    · cases hremove
    · cases hremove
      rfl

end Store

/-! ## Sessions -/

namespace Database

/-- The session does not fail for the fault of an argument. -/
def Spares (session : Session α) : Prop := ∀ db e, (session db).1 = .error e → ¬e.BlamesArgument

theorem spares_pure (value : α) : Spares (pure value) := fun _ _ h => by cases h

theorem spares_throw {e : CallError} (h : ¬e.BlamesArgument) : Spares (throw e : Session α) := by
  intro db cause hcause
  cases hcause
  exact h

theorem spares_check {outcome : Except SyncError α}
    (h : ∀ cause, outcome = .error cause → cause.kind ≠ .invalidArgument) :
    Spares (check outcome) := by
  cases outcome with
  | ok value => exact spares_pure value
  | error cause => exact spares_throw (h cause rfl)

/-- A statement fails only with the database. -/
theorem spares_run (statement : Statement α) : Spares (run statement) := by
  intro db e he
  rw [run] at he
  split at he
  · cases he
    exact CallError.not_blamesArgument_database
  · split at he
    · cases he
      exact CallError.not_blamesArgument_database
    · cases he

theorem Spares.bind {first : Session α} {next : α → Session β} (h : Spares first)
    (hnext : ∀ value, Spares (next value)) : Spares (first >>= next) := by
  intro db e he
  rcases bind_cases first next db with ⟨cause, after, hfirst, hbind⟩ | ⟨value, after, -, hbind⟩
  · rw [hbind] at he
    cases he
    exact h db e (by rw [hfirst])
  · rw [hbind] at he
    exact hnext value after e he

/-- A transaction does not fail so if nothing in it does. -/
theorem Spares.transaction {body : Session α} (h : Spares body) : Spares (transaction body) := by
  have hended : Spares (body >>= fun result => run .commit >>= fun _ => pure result) :=
    h.bind fun result => (spares_run .commit).bind fun _ => spares_pure result
  intro db e he
  rw [Database.transaction] at he
  split at he
  · rename_i hbegin
    cases he
    exact spares_run .begin db e (by rw [hbegin])
  · rename_i opened _
    split at he
    · cases he
    · rename_i hfails
      cases he
      exact hended opened e (by rw [hfails])

theorem spares_readRows (rows : List (RowId × StoredRow)) : Spares (readRows rows) := by
  induction rows with
  | nil => exact spares_pure []
  | cons entry rest ih =>
    obtain ⟨id, stored⟩ := entry
    rw [readRows]
    split
    · exact ih.bind fun _ => spares_pure _
    · exact spares_throw CallError.not_blamesArgument_database

theorem spares_readLocalRows (rows : List (RowId × String)) : Spares (readLocalRows rows) := by
  induction rows with
  | nil => exact spares_pure []
  | cons entry rest ih =>
    obtain ⟨id, text⟩ := entry
    rw [readLocalRows]
    split
    · exact ih.bind fun _ => spares_pure _
    · exact spares_throw CallError.not_blamesArgument_database

theorem spares_getRow? (scope : Scope) (id : RowId) : Spares (getRow? scope id) :=
  (spares_run _).bind fun _ => (spares_readRows _).bind fun _ => spares_pure _

theorem spares_checkRowId (h : id.IsValid) : Spares (check (checkRowId id)) := by
  rw [checkRowId_eq_ok_iff.2 h]
  exact spares_pure ()

theorem spares_getLive (h : id.IsValid) (scope : Scope) : Spares (getLive scope id) := by
  refine (spares_checkRowId h).bind fun _ => (spares_getRow? scope id).bind fun found => ?_
  split
  · exact spares_pure _
  · exact spares_throw nofun

theorem spares_start (scope : Scope) (now : Timestamp) : Spares (Writer.start scope now) := by
  have hmark : Spares (highWater scope) := (spares_run _).bind fun _ => spares_pure _
  exact (spares_run _).bind fun _ => hmark.bind fun _ => spares_pure _

theorem spares_delete (writer : Writer) (id : RowId) (claim : Option Timestamp) :
    Spares (writer.delete id claim) := by
  have htick : Spares (writer.tick claim) := by
    refine (spares_check fun cause hcause => ?_).bind fun _ => spares_pure _
    rw [HybridClock.tick_eq_error hcause]
    nofun
  refine (spares_getRow? writer.scope id).bind fun found => ?_
  cases found with
  | none => exact spares_throw nofun
  | some row =>
    refine htick.bind fun told => ?_
    exact (spares_run _).bind fun _ => spares_pure _

theorem spares_localRow (h : id.IsValid) (scope : Scope) : Spares (localRow scope id) := by
  refine (spares_checkRowId h).bind fun _ => (spares_run _).bind fun _ =>
    (spares_readLocalRows _).bind fun rows => ?_
  split
  · exact spares_pure _
  · exact spares_throw nofun

theorem spares_deleteLocal (h : id.IsValid) (scope : Scope) : Spares (deleteLocal scope id) := by
  refine (spares_checkRowId h).bind fun _ => (spares_run _).bind fun count => ?_
  split
  · exact spares_throw nofun
  · exact spares_pure ()

end Database

/-! ## Backends -/

namespace Backend

/-- Getting and deleting the row with the id do not refuse the id, in sync tables and in local
ones. -/
structure Accepts (backend : Backend) (limits : Limits) (scope : Scope) (now : Timestamp)
    (id : RowId) : Prop where
  /-- The row of a sync table can be asked for. -/
  row : ∀ e, (backend.performSync limits scope now (.row id)).1 = .error e → ¬e.BlamesArgument
  /-- The row of a sync table can be deleted. -/
  delete : ∀ e, (backend.performSync limits scope now (.delete id)).1 = .error e →
    ¬e.BlamesArgument
  /-- The row of a local table can be asked for. -/
  localRow : ∀ e, (backend.performLocal scope now (.row id)).1 = .error e → ¬e.BlamesArgument
  /-- The row of a local table can be removed. -/
  localDelete : ∀ e, (backend.performLocal scope now (.delete id)).1 = .error e →
    ¬e.BlamesArgument

/-- A refusal that a store tells is the one of the operation. -/
theorem not_blamesArgument_of_mapError {outcome : Except SyncError α} {e : CallError}
    (h : ∀ cause, outcome = .error cause → cause.kind ≠ .invalidArgument)
    (he : outcome.mapError .refused = .error e) : ¬e.BlamesArgument := by
  cases outcome with
  | ok value => cases he
  | error cause =>
    cases he
    exact h cause rfl

/-- Every valid id is accepted. -/
theorem accepts_of_isValid (h : id.IsValid) (backend : Backend) (limits : Limits) (scope : Scope)
    (now : Timestamp) : backend.Accepts limits scope now id := by
  cases backend with
  | memory syncStore localStore =>
    have hget {store : Store} (cause : SyncError) (hcause : store.get scope id = .error cause) :
        cause.kind ≠ .invalidArgument := by
      rw [Store.get_eq_error h hcause]
      nofun
    refine ⟨fun e he => not_blamesArgument_of_mapError (fun cause hcause => ?_) he,
      fun e he => not_blamesArgument_of_mapError (fun cause hcause => ?_) he,
      fun e he => not_blamesArgument_of_mapError (fun cause hcause => ?_) he,
      fun e he => not_blamesArgument_of_mapError (fun cause hcause => ?_) he⟩
    · exact hget cause (map_eq_error_iff.1 hcause)
    · exact Store.kind_of_delete_eq_error h (map_eq_error_iff.1 hcause)
    · exact hget cause (map_eq_error_iff.1 (map_eq_error_iff.1 hcause))
    · rw [Store.remove_eq_error h (map_eq_error_iff.1 (map_eq_error_iff.1 hcause))]
      nofun
  | database db =>
    have hrow : Database.Spares (Database.performSync limits scope now (.row id)) :=
      (Database.spares_getLive h scope).bind fun _ => Database.spares_pure _
    have hdelete : Database.Spares (Database.performSync limits scope now (.delete id)) := by
      have hsession : Database.Spares (Database.delete scope now id) :=
        (Database.spares_checkRowId h).bind fun _ => Database.Spares.transaction
          ((Database.spares_start scope now).bind fun writer =>
            (Database.spares_delete writer id none).bind fun _ => Database.spares_pure _)
      exact hsession.bind fun _ => Database.spares_pure _
    have hlocalRow : Database.Spares (Database.performLocal scope (.row id)) :=
      (Database.spares_localRow h scope).bind fun _ => Database.spares_pure _
    have hlocalDelete : Database.Spares (Database.performLocal scope (.delete id)) :=
      (Database.spares_deleteLocal h scope).bind fun _ => Database.spares_pure _
    exact ⟨hrow db, hdelete db, hlocalRow db, hlocalDelete db⟩

end Backend

end RowSync
