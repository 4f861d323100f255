import RowSync.Proofs.Database.Rows
import RowSync.Proofs.ScopeState.Writes

/-!
# Sessions in Step with States

A database holds the state of a scope if its columns are those of the rows (`Database.Holds`). A
session is in step with an operation on the state if both give the same result and the database then
holds the state after it, or both fail alike (`Database.Follows`). A transaction in step with an
operation holds the state of before if it fails (`Follows.transaction`).
-/

namespace RowSync

/-- The text does not have the character U+0000. -/
def NulFree (text : String) : Prop := '\x00' ∉ text.toList

instance (text : String) : Decidable (NulFree text) :=
  inferInstanceAs (Decidable ('\x00' ∉ text.toList))

/-- The database keeps the names of the scope. -/
structure Scope.IsKept (scope : Scope) : Prop where
  /-- The name of the table can be bound. -/
  table : NulFree scope.table
  /-- The name of the user can be bound. -/
  user : NulFree scope.user

/-- A scope is kept just if its two names can be bound. -/
theorem Scope.isKept_iff {scope : Scope} :
    scope.IsKept ↔ NulFree scope.table ∧ NulFree scope.user :=
  ⟨fun h => ⟨h.table, h.user⟩, fun h => ⟨h.1, h.2⟩⟩

instance (scope : Scope) : Decidable scope.IsKept :=
  decidable_of_iff (NulFree scope.table ∧ NulFree scope.user) Scope.isKept_iff.symm

/-- The database keeps the row. -/
structure Row.IsKept (row : Row) : Prop where
  /-- The id can be bound. -/
  id : NulFree row.id
  /-- The payload is kept. -/
  payload : row.payload.IsKept

namespace Database

/-- Statements reach the database, and no fault is going to strike. -/
structure Healthy (db : Database) : Prop where
  /-- Statements reach the database. -/
  isReachable : db.isReachable = true
  /-- No fault was planted. -/
  noFault : db.fault = none

/-- The tables record the state of a scope. -/
structure Records (tables : Tables) (scope : Scope) (state : ScopeState) : Prop where
  /-- The columns are those of the rows. -/
  rows : scopeRows tables.syncRows scope = state.rows.mapValues StoredRow.ofRow
  /-- The state is sound. -/
  sound : state.Sound

/-- The database holds the state of a scope. -/
structure Holds (db : Database) (scope : Scope) (state : ScopeState) : Prop where
  /-- Statements succeed. -/
  healthy : db.Healthy
  /-- The columns are those of the rows. -/
  rows : scopeRows db.tables.syncRows scope = state.rows.mapValues StoredRow.ofRow
  /-- The rows are such as are kept. -/
  kept : ∀ {id row}, state.get? id = some row → row.IsKept
  /-- The state is sound. -/
  sound : state.Sound

/-- What is recorded of a scope depends on its own rows only. -/
theorem Records.of_scopeRows_eq {tables tables' : Tables} {scope : Scope} {state : ScopeState}
    (h : Records tables scope state)
    (heq : scopeRows tables'.syncRows scope = scopeRows tables.syncRows scope) :
    Records tables' scope state where
  rows := heq.trans h.rows
  sound := h.sound

theorem Holds.records {db : Database} {scope : Scope} {state : ScopeState}
    (h : db.Holds scope state) : Records db.tables scope state :=
  ⟨h.rows, h.sound⟩

/-- Two databases have the same rows in all scopes but one. -/
def SameElse (scope : Scope) (db db' : Database) : Prop :=
  ∀ other, other ≠ scope → scopeRows db'.tables.syncRows other = scopeRows db.tables.syncRows other

variable {db db' db'' : Database} {scope : Scope} {state state' : ScopeState} {α β γ δ : Type}

/-! ## Running -/

/-- A session goes on after a part of it that succeeds. -/
theorem bind_of_ok {first : Session α} {next : α → Session β} {value : α}
    (h : first db = (.ok value, db')) : (first >>= next) db = next value db' := by
  simp only [bind, ExceptT.bind, ExceptT.mk, StateT.bind, h]
  rfl

theorem bind_of_error {first : Session α} {next : α → Session β} {e : CallError}
    (h : first db = (.error e, db')) : (first >>= next) db = (.error e, db') := by
  simp only [bind, ExceptT.bind, ExceptT.mk, StateT.bind, h]
  rfl

/-- Of two sessions one after the other the first one fails, and with it the whole, or the second
goes on from where the first ended. -/
theorem bind_cases (first : Session α) (next : α → Session β) (db : Database) :
    (∃ e db', first db = (.error e, db') ∧ (first >>= next) db = (.error e, db')) ∨
      ∃ value db', first db = (.ok value, db') ∧ (first >>= next) db = next value db' := by
  cases hfirst : first db with
  | mk outcome db' =>
    cases outcome with
    | error e => exact .inl ⟨e, db', rfl, bind_of_error hfirst⟩
    | ok value => exact .inr ⟨value, db', rfl, bind_of_ok hfirst⟩

/-- Sessions one after the other succeed only if each of them does. -/
theorem bind_eq_ok {first : Session α} {next : α → Session β} {value : β}
    (h : (first >>= next) db = (.ok value, db')) : ∃ middle between,
      first db = (.ok middle, between) ∧ next middle between = (.ok value, db') := by
  rcases bind_cases first next db with ⟨e, after, -, hbind⟩ | ⟨middle, between, hfirst, hbind⟩
  · rw [hbind] at h
    cases h
  · exact ⟨middle, between, hfirst, hbind.symm.trans h⟩

/-- A statement has no U+0000 just if its texts and its payload have none. -/
theorem hasNul_eq_false_iff {statement : Statement α} :
    statement.hasNul = false ↔ (∀ text ∈ statement.texts, NulFree text) ∧
      ∀ payload ∈ statement.payload?, jsonHasNul payload.toJson = false := by
  rw [Statement.hasNul, Bool.or_eq_false_iff, List.any_eq_false]
  refine and_congr (forall₂_congr fun text _ => ?_) ?_
  · simp [NulFree]
  · cases statement.payload? <;> simp

theorem run_of_hasNul {statement : Statement α} (hnul : statement.hasNul = true) (db : Database) :
    run statement db = (.error .database, db) := by
  simp [run, hnul]

/-- A statement that has no U+0000 succeeds. -/
theorem run_eq (h : db.Healthy) {statement : Statement α} (hnul : statement.hasNul = false) :
    run statement db =
      (.ok (statement.eval db.tables).1, { db with tables := (statement.eval db.tables).2 }) := by
  simp [run, h.isReachable, hnul, meetFault, h.noFault]

theorem SameElse.trans (h : SameElse scope db db') (h' : SameElse scope db' db'') :
    SameElse scope db db'' := fun other hother => (h' other hother).trans (h other hother)

/-! ## Sessions in a transaction -/

/-- The outcome of a session is that of an operation on the state. From the result of the operation
and the state after it, `tell` says what the session returns. -/
inductive Follows (scope : Scope) (db : Database) (tell : α → ScopeState → β) :
    Except CallError β × Database → Except SyncError (α × ScopeState) → Prop
  | ok (value : α) {state : ScopeState} {db' : Database} (hholds : db'.Holds scope state)
    (helse : SameElse scope db db') :
    Follows scope db tell (.ok (tell value state), db') (.ok (value, state))
  | error (e : SyncError) {db' : Database} (hhealthy : db'.Healthy)
    (helse : SameElse scope db db') :
    Follows scope db tell (.error (.refused e), db') (.error e)

/-- What a session returns that tells just the result. -/
def result (value : α) (_ : ScopeState) : α := value

/-- Being in step does not depend on the scope before, of which only the others are compared. -/
theorem Follows.of_sameElse {tell : α → ScopeState → β} {outcome : Except CallError β × Database}
    {expected : Except SyncError (α × ScopeState)} (h : Follows scope db' tell outcome expected)
    (helse : SameElse scope db db') : Follows scope db tell outcome expected := by
  cases h with
  | ok value hholds helse' => exact .ok value hholds (helse.trans helse')
  | error e hhealthy helse' => exact .error e hhealthy (helse.trans helse')

/-- Sessions in step may be followed by sessions in step. -/
theorem Follows.bind {tell : α → ScopeState → β} {tell' : γ → ScopeState → δ} {first : Session β}
    {first' : Except SyncError (α × ScopeState)} {next : β → Session δ}
    {next' : α × ScopeState → Except SyncError (γ × ScopeState)}
    (h : Follows scope db tell (first db) first')
    (hnext : ∀ value state db', Holds db' scope state →
      Follows scope db' tell' (next (tell value state) db') (next' (value, state))) :
    Follows scope db tell' ((first >>= next) db) (first' >>= next') := by
  -- What the first session does to the other scopes is nothing, and so is what both do together.
  generalize hfirst : first db = outcome at h
  cases h with
  | ok value hholds helse =>
    have hafter := hnext value _ _ hholds
    rw [bind_of_ok hfirst]
    exact hafter.of_sameElse helse
  | error e hhealthy helse =>
    rw [bind_of_error hfirst]
    exact .error e hhealthy helse

/-- Sessions stay in step behind the same check. -/
theorem Follows.check {tell : β → ScopeState → γ} {outcome : Except SyncError α}
    {next : α → Session γ} {next' : α → Except SyncError (β × ScopeState)} (h : db.Healthy)
    (hnext : ∀ value, outcome = .ok value → Follows scope db tell (next value db) (next' value)) :
    Follows scope db tell ((Database.check outcome >>= next) db) (outcome >>= next') := by
  cases outcome with
  | ok value => exact hnext value rfl
  | error e => exact .error e h fun _ _ => rfl

/-! ## Sessions on their own -/

/-- The outcome of a session is that of an operation on the state that the database holds. If the
operation fails, the database holds the state of before. -/
structure Answers (scope : Scope) (db : Database) (state : ScopeState)
    (actual : Except CallError α × Database) (expected : Except SyncError (α × ScopeState)) :
    Prop where
  /-- The results are the same. -/
  result : actual.1 = (expected.map Prod.fst).mapError .refused
  /-- The database holds the state after the operation. -/
  holds : actual.2.Holds scope (state.settle expected)
  /-- All other scopes are as before. -/
  others : SameElse scope db actual.2

/-- A transaction on a healthy database succeeds with what is done in it. -/
theorem transaction_of_ok {body : Session α} {value : α} (h : db.Healthy) (h' : db'.Healthy)
    (hbody : body db = (.ok value, db')) : Database.transaction body db = (.ok value, db') := by
  -- Opening and committing bind no text, so a healthy database does both.
  have hbegin : run .begin db = (.ok (), db) := run_eq h rfl
  have hcommit : run .commit db' = (.ok (), db') := run_eq h' rfl
  have hended : (body >>= fun result => run .commit >>= fun _ => pure result : Session α) db =
      (.ok value, db') := by
    rw [bind_of_ok hbody, bind_of_ok hcommit]
    rfl
  rw [Database.transaction, hbegin]
  simp only [hended]

/-- A transaction that fails leaves the rows as they were. -/
theorem transaction_of_error {body : Session α} {e : CallError} (h : db.Healthy)
    (hbody : body db = (.error e, db')) :
    Database.transaction body db = (.error e, { db' with tables := db.tables }) := by
  have hbegin : run .begin db = (.ok (), db) := run_eq h rfl
  -- The commit is not reached.
  have hended : (body >>= fun result => run .commit >>= fun _ => pure result : Session α) db =
      (.error e, db') :=
    bind_of_error hbody
  rw [Database.transaction, hbegin]
  simp only [hended]

/-- A transaction in step with an operation answers as the operation does. -/
theorem Follows.transaction {body : Session α} {expected : Except SyncError (α × ScopeState)}
    (hdb : db.Holds scope state) (h : Follows scope db Database.result (body db) expected) :
    Answers scope db state (Database.transaction body db) expected := by
  generalize hbody : body db = outcome at h
  cases h with
  | ok value hholds helse =>
    rw [transaction_of_ok hdb.healthy hholds.healthy hbody]
    exact ⟨rfl, hholds, helse⟩
  | error e hhealthy helse =>
    -- What was written is gone; what counts for the next session is that the database is healthy.
    rw [transaction_of_error hdb.healthy hbody]
    exact ⟨rfl, ⟨⟨hhealthy.isReachable, hhealthy.noFault⟩, hdb.rows, hdb.kept, hdb.sound⟩,
      fun _ _ => rfl⟩

end Database

end RowSync
