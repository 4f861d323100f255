import RowSync.Proofs.Confinement
import RowSync.Proofs.Database.History

/-!
# Isolation in a Database

Every call on a scope of a database is confined to the rows of the scope in the table of its kind
(`Database.confined_performSync`, `Database.confined_performLocal`), as long as no fault is planted:
a fault counts statements, whatever rows they are about. Each statement selects by the table name
and the user, so it is confined to its scope on its own (`confined_eval`); what is put together of
confined sessions is confined, transactions included, which undo what they did if they fail.
-/

namespace RowSync

/-- A table that calls are made on. -/
inductive TableRef where
  /-- The sync table of a scope. -/
  | sync (scope : Scope)
  /-- The local table of a scope. -/
  | onLocal (scope : Scope)
deriving DecidableEq, Repr

namespace Database

variable {scope : Scope} {ref : TableRef} {α β : Type}

/-! ## Statements -/

/-- The rows of a table. -/
inductive Rows where
  | sync (rows : OrderedMap RowId StoredRow)
  | onLocal (rows : OrderedMap RowId String)
deriving DecidableEq, Repr

/-- The rows of a table in the tables of the database. -/
def rowsOf : TableRef → Tables → Rows
  | .sync scope, tables => .sync (scopeRows tables.syncRows scope)
  | .onLocal scope, tables => .onLocal (scopeRows tables.localRows scope)

/-- The table that a statement is about; none if it is about no rows. -/
def Statement.table? : Statement α → Option TableRef
  | .begin | .commit | .lock _ _ => none
  | .highWater scope | .row scope _ | .liveRows scope | .liveIds scope | .changesAfter scope _
  | .writeRow scope _ => some (.sync scope)
  | .localRows scope | .localRow scope _ | .writeLocalRow scope _ | .deleteLocalRow scope _ =>
    some (.onLocal scope)

/-- Changing the rows of one sync table leaves all other tables as they are. -/
theorem rowsOf_syncRows_of_ne {tables : Tables} {syncRows : OrderedMap RowKey StoredRow}
    (hrows : ∀ other ≠ scope, scopeRows syncRows other = scopeRows tables.syncRows other)
    {other : TableRef} (hother : other ≠ .sync scope) :
    rowsOf other { tables with syncRows } = rowsOf other tables := by
  cases other with
  | sync other => exact congrArg Rows.sync (hrows other fun h => hother (congrArg TableRef.sync h))
  | onLocal other => rfl

/-- Changing the rows of one local table leaves all other tables as they are. -/
theorem rowsOf_localRows_of_ne {tables : Tables} {localRows : OrderedMap RowKey String}
    (hrows : ∀ other ≠ scope, scopeRows localRows other = scopeRows tables.localRows other)
    {other : TableRef} (hother : other ≠ .onLocal scope) :
    rowsOf other { tables with localRows } = rowsOf other tables := by
  cases other with
  | sync other => rfl
  | onLocal other =>
    exact congrArg Rows.onLocal (hrows other fun h => hother (congrArg TableRef.onLocal h))

/-- What a statement returns and does is confined to the table that it is about. -/
theorem confined_eval (statement : Statement α) (h : ∀ about ∈ statement.table?, about = ref) :
    ConfinedTo (fun _ => True) rowsOf ref statement.eval := by
  cases statement with
  | begin | commit | lock => exact confinedTo_of_reads (fun _ => rfl) fun _ _ _ => rfl
  | highWater scope | row scope | liveRows scope | liveIds scope | changesAfter scope =>
    obtain rfl : .sync scope = ref := h _ rfl
    refine confinedTo_of_reads (fun _ => rfl) fun tables tables' heq => ?_
    simp only [Statement.eval, ofScope_eq_of_scopeRows_eq (Rows.sync.inj heq)]
  | localRows scope | localRow scope =>
    obtain rfl : .onLocal scope = ref := h _ rfl
    refine confinedTo_of_reads (fun _ => rfl) fun tables tables' heq => ?_
    simp only [Statement.eval, ofScope_eq_of_scopeRows_eq (Rows.onLocal.inj heq)]
  | writeRow scope written =>
    obtain rfl : .sync scope = ref := h _ rfl
    refine ⟨fun _ _ heq => ⟨rfl, ?_⟩, fun _ hother => ?_, id⟩
    · simp only [rowsOf, Statement.eval, scopeRows_insert_self, Rows.sync.inj heq]
    · exact rowsOf_syncRows_of_ne (fun _ hne => scopeRows_insert_of_ne hne _ _ _) hother
  | writeLocalRow scope written =>
    obtain rfl : .onLocal scope = ref := h _ rfl
    refine ⟨fun _ _ heq => ⟨rfl, ?_⟩, fun _ hother => ?_, id⟩
    · simp only [rowsOf, Statement.eval, scopeRows_insert_self, Rows.onLocal.inj heq]
    · exact rowsOf_localRows_of_ne (fun _ hne => scopeRows_insert_of_ne hne _ _ _) hother
  | deleteLocalRow scope removed =>
    obtain rfl : .onLocal scope = ref := h _ rfl
    refine ⟨fun _ _ heq => ?_, fun _ hother => ?_, id⟩
    · -- How many rows there were is known from the rows of the scope, too.
      simp only [rowsOf, Statement.eval, contains_ofScope, scopeRows_erase_self,
        Rows.onLocal.inj heq, true_and]
    · exact rowsOf_localRows_of_ne (fun _ hne => scopeRows_erase_of_ne hne _ _) hother

/-! ## Sessions -/

/-- What a session on a table finds of a database: whether it is reached, and the rows. -/
def part (ref : TableRef) (db : Database) : Bool × Rows := (db.isReachable, rowsOf ref db.tables)

/-- No fault is planted in the database. -/
def IsFaultless (db : Database) : Prop := db.fault = none

/-- The session is confined to a table, as long as no fault is planted. -/
abbrev Confined (ref : TableRef) (session : Session α) : Prop :=
  ConfinedTo IsFaultless part ref fun db => session db

theorem run_of_faultless {db : Database} (h : db.IsFaultless) (statement : Statement α) :
    run statement db =
      if !db.isReachable || statement.hasNul then (.error .database, db)
      else (.ok (statement.eval db.tables).1,
        { db with tables := (statement.eval db.tables).2 }) := by
  have hmeet : db.meetFault statement.text = (false, db) := by
    rw [meetFault, show db.fault = none from h]
  rw [run, hmeet]

/-- A statement is confined to the table that it is about. -/
theorem confined_run (statement : Statement α) (h : ∀ about ∈ statement.table?, about = ref) :
    Confined ref (run statement) := by
  have heval := confined_eval statement h
  refine ⟨fun {db db'} hdb hdb' hpart => ?_, fun {db other} hdb hother => ?_, fun {db} hdb => ?_⟩
  · obtain ⟨hreach, hrows⟩ := Prod.mk.inj hpart
    obtain ⟨htold, hafter⟩ := heval.alike trivial trivial hrows
    rw [run_of_faultless hdb, run_of_faultless hdb', hreach]
    split
    · -- Whether the statement is refused depends on what is bound to it, not on the rows.
      exact ⟨rfl, hpart⟩
    · exact ⟨congrArg Except.ok htold, Prod.ext rfl hafter⟩
  · rw [run_of_faultless hdb]
    split
    · rfl
    · exact Prod.ext rfl (heval.others trivial hother)
  · rw [run_of_faultless hdb]
    split
    · exact hdb
    · exact hdb

/-- A statement that is about a table is confined to it. -/
theorem confined_run_on {statement : Statement α} (h : statement.table? = some ref) :
    Confined ref (run statement) :=
  confined_run statement fun _ habout => Option.some.inj (habout.symm.trans h)

/-- A statement that is about no rows is confined to any table. -/
theorem confined_run_of_none {statement : Statement α} (h : statement.table? = none)
    (ref : TableRef) : Confined ref (run statement) :=
  confined_run statement fun _ habout => nomatch habout.symm.trans h

theorem confined_pure (ref : TableRef) (value : α) : Confined ref (pure value) :=
  confinedTo_of_reads (fun _ => rfl) fun _ _ _ => rfl

theorem confined_throw (ref : TableRef) (e : CallError) : Confined ref (throw e : Session α) :=
  confinedTo_of_reads (fun _ => rfl) fun _ _ _ => rfl

theorem confined_check (ref : TableRef) (outcome : Except SyncError α) :
    Confined ref (check outcome) := by
  cases outcome with
  | ok value => exact confined_pure ref value
  | error e => exact confined_throw ref _

/-- A session goes on confined if it does so after whatever its first part may return. -/
theorem Confined.bind_of_returns {first : Session α} {next : α → Session β}
    (h : Confined ref first)
    (hnext : ∀ value, (∃ db db', first db = (.ok value, db')) → Confined ref (next value)) :
    Confined ref (first >>= next) := by
  refine ⟨fun {db db'} hdb hdb' hpart => ?_, fun {db other} hdb hother => ?_, fun {db} hdb => ?_⟩
  · -- The first parts end alike, and after a success the rest goes on from alike databases.
    obtain ⟨htold, hafter⟩ := h.alike hdb hdb' hpart
    have hsound := h.sound hdb
    have hsound' := h.sound hdb'
    generalize hfirst' : first db' = outcome' at htold hafter hsound'
    obtain ⟨result', after'⟩ := outcome'
    rcases bind_cases first next db with ⟨e, after, hfirst, hbind⟩ | ⟨value, after, hfirst, hbind⟩
    · rw [hfirst] at htold hafter
      cases htold
      rw [hbind, bind_of_error hfirst']
      exact ⟨rfl, hafter⟩
    · rw [hfirst] at htold hafter hsound
      cases htold
      rw [hbind, bind_of_ok hfirst']
      exact (hnext value ⟨db, after, hfirst⟩).alike hsound hsound' hafter
  · -- What the first part leaves of another table, the rest leaves as it is, too.
    have hfirst := h.others hdb hother
    have hsound := h.sound hdb
    rcases bind_cases first next db with ⟨e, after, hrun, hbind⟩ | ⟨value, after, hrun, hbind⟩
    · rw [hrun] at hfirst
      rw [hbind]
      exact hfirst
    · rw [hrun] at hfirst hsound
      rw [hbind]
      exact ((hnext value ⟨db, after, hrun⟩).others hsound hother).trans hfirst
  · have hsound := h.sound hdb
    rcases bind_cases first next db with ⟨e, after, hrun, hbind⟩ | ⟨value, after, hrun, hbind⟩
    · rw [hrun] at hsound
      rw [hbind]
      exact hsound
    · rw [hrun] at hsound
      rw [hbind]
      exact (hnext value ⟨db, after, hrun⟩).sound hsound

theorem Confined.bind {first : Session α} {next : α → Session β} (h : Confined ref first)
    (hnext : ∀ value, Confined ref (next value)) : Confined ref (first >>= next) :=
  h.bind_of_returns fun value _ => hnext value

/-- A session stays confined when its result is told as something else. -/
theorem Confined.map {session : Session α} (h : Confined ref session) (f : α → β) :
    Confined ref (session >>= fun value => pure (f value)) :=
  h.bind fun _ => confined_pure ref _

/-! ## Transactions -/

/-- A session that puts the tables back as they were if it fails. -/
def undoing (session : Session α) : Session α := fun db =>
  match session db with
  | (.ok value, db') => (.ok value, db')
  | (.error e, db') => (.error e, { db' with tables := db.tables })

theorem transaction_eq_undoing (body : Session α) : Database.transaction body =
    run .begin >>= fun _ =>
      undoing (body >>= fun value => run .commit >>= fun _ => pure value) := by
  funext db
  cases hbegin : run .begin db with
  | mk opening opened =>
    cases opening with
    | error e => rw [bind_of_error hbegin, Database.transaction, hbegin]
    | ok _ =>
      rw [bind_of_ok hbegin, Database.transaction, hbegin]
      rfl

theorem Confined.undoing {session : Session α} (h : Confined ref session) :
    Confined ref (undoing session) := by
  refine ⟨fun {db db'} hdb hdb' hpart => ?_, fun {db other} hdb hother => ?_, fun {db} hdb => ?_⟩
  · obtain ⟨htold, hafter⟩ := h.alike hdb hdb' hpart
    obtain ⟨-, hrows⟩ := Prod.mk.inj hpart
    rw [Database.undoing, Database.undoing]
    generalize session db = outcome at htold hafter
    generalize session db' = outcome' at htold hafter
    obtain ⟨result, after⟩ := outcome
    obtain ⟨result', after'⟩ := outcome'
    cases htold
    cases result with
    | ok value => exact ⟨rfl, hafter⟩
    | error e =>
      -- The rows are those of before, which were the same as well.
      obtain ⟨hreach, -⟩ := Prod.mk.inj hafter
      exact ⟨rfl, Prod.ext hreach hrows⟩
  · have hkept := h.others hdb hother
    rw [Database.undoing]
    generalize session db = outcome at hkept
    obtain ⟨result, after⟩ := outcome
    cases result with
    | ok value => exact hkept
    | error e =>
      obtain ⟨hreach, -⟩ := Prod.mk.inj hkept
      exact Prod.ext hreach rfl
  · have hsound := h.sound hdb
    rw [Database.undoing]
    generalize session db = outcome at hsound
    obtain ⟨result, after⟩ := outcome
    cases result with
    | ok value => exact hsound
    | error e => exact hsound

/-- A transaction is confined if its body is. -/
theorem Confined.transaction {body : Session α} (h : Confined ref body) :
    Confined ref (Database.transaction body) := by
  rw [transaction_eq_undoing]
  have hended : Confined ref (body >>= fun value => run .commit >>= fun _ => pure value) :=
    h.bind fun _ => (confined_run_of_none rfl ref).map _
  exact (confined_run_of_none rfl ref).bind fun _ => hended.undoing

/-! ## Sync tables -/

theorem confined_readRows (ref : TableRef) (rows : List (RowId × StoredRow)) :
    Confined ref (readRows rows) := by
  induction rows with
  | nil => exact confined_pure ref _
  | cons entry rest ih =>
    obtain ⟨id, stored⟩ := entry
    rw [readRows]
    split
    · exact ih.map _
    · exact confined_throw ref _

theorem confined_highWater (scope : Scope) : Confined (.sync scope) (highWater scope) :=
  (confined_run_on rfl).map _

theorem confined_getRow? (scope : Scope) (id : RowId) :
    Confined (.sync scope) (getRow? scope id) :=
  (confined_run_on rfl).bind fun rows => (confined_readRows _ rows).map _

theorem confined_liveRows (scope : Scope) : Confined (.sync scope) (liveRows scope) :=
  (confined_run_on rfl).bind (confined_readRows _)

theorem confined_changesAfter (scope : Scope) (time : Timestamp) :
    Confined (.sync scope) (changesAfter scope time) :=
  (confined_run_on rfl).bind (confined_readRows _)

theorem confined_getLive (scope : Scope) (id : RowId) :
    Confined (.sync scope) (getLive scope id) := by
  refine (confined_check _ _).bind fun _ => (confined_getRow? scope id).bind fun found => ?_
  split
  · exact confined_pure _ _
  · exact confined_throw _ _

theorem confined_snapshot (scope : Scope) : Confined (.sync scope) (snapshot scope) :=
  Confined.transaction <| (confined_run_of_none rfl _).bind fun _ =>
    (confined_highWater scope).bind fun _ => (confined_liveRows scope).map _

/-- A writer assigns timestamps without looking at the database. -/
theorem confined_tick (ref : TableRef) (writer : Writer) (claim : Option Timestamp) :
    Confined ref (writer.tick claim) :=
  (confined_check ref _).map _

theorem confined_store (writer : Writer) (row : Row) :
    Confined (.sync writer.scope) (writer.store row) :=
  (confined_run_on rfl).map _

/-- A write goes to the scope of the writer, which it is after a timestamp was assigned, too. -/
theorem confined_upsert (writer : Writer) (id : RowId) (payload : Payload)
    (claim : Option Timestamp) :
    Confined (.sync writer.scope) (writer.upsert id payload claim) := by
  refine (confined_tick _ writer claim).bind_of_returns ?_
  rintro ⟨time, ticked⟩ ⟨db, db', hticked⟩
  obtain ⟨clock, -, rfl, -⟩ := tick_eq_ok hticked
  refine (confined_getRow? writer.scope id).bind fun found => ?_
  split
  · exact confined_store ⟨writer.scope, clock, writer.now⟩ _
  · exact confined_store ⟨writer.scope, clock, writer.now⟩ _

theorem confined_delete (writer : Writer) (id : RowId) (claim : Option Timestamp) :
    Confined (.sync writer.scope) (writer.delete id claim) := by
  refine (confined_getRow? writer.scope id).bind fun found => ?_
  split
  · exact confined_throw _ _
  · refine (confined_tick _ writer claim).bind_of_returns ?_
    rintro ⟨time, ticked⟩ ⟨db, db', hticked⟩
    obtain ⟨clock, -, rfl, -⟩ := tick_eq_ok hticked
    exact confined_store ⟨writer.scope, clock, writer.now⟩ _

theorem confined_operation (operation : Operation α) (writer : Writer) :
    Confined (.sync writer.scope) (operation.write writer.scope writer) := by
  cases operation with
  | row id => exact (confined_getRow? writer.scope id).map _
  | liveIds => exact (confined_run_on rfl).map _
  | changesAfter time => exact (confined_changesAfter writer.scope time).map _
  | highWater => exact confined_pure _ _
  | upsert id payload claim => exact confined_upsert writer id payload claim
  | delete id claim => exact confined_delete writer id claim

/-- An operation leaves the writer on its scope. -/
theorem scope_of_operation {operation : Operation α} {writer writer' : Writer} {result : α}
    {db db' : Database} (hwrite : operation.write scope writer db = (.ok (result, writer'), db')) :
    writer'.scope = writer.scope := by
  cases operation with
  | row | liveIds | changesAfter =>
    obtain ⟨_, _, -, hwrite⟩ := bind_eq_ok hwrite
    cases hwrite
    rfl
  | highWater =>
    cases hwrite
    rfl
  | upsert id payload claim =>
    obtain ⟨⟨time, ticked⟩, _, hticked, hrest⟩ := bind_eq_ok hwrite
    obtain ⟨clock, -, rfl, -⟩ := tick_eq_ok hticked
    obtain ⟨found, _, -, hstore⟩ := bind_eq_ok hrest
    cases found with
    | some | none => rw [(store_eq_ok hstore).2.1]
  | delete id claim =>
    obtain ⟨found, _, -, hrest⟩ := bind_eq_ok hwrite
    cases found with
    | none => cases hrest
    | some before =>
      obtain ⟨⟨time, ticked⟩, _, hticked, hstore⟩ := bind_eq_ok hrest
      obtain ⟨clock, -, rfl, -⟩ := tick_eq_ok hticked
      rw [(store_eq_ok hstore).2.1]

/-- A script is confined to the scope of its writer, whatever it goes on with. -/
theorem confined_script (script : Script α) (writer : Writer) (hscope : writer.scope = scope) :
    Confined (.sync scope) (script.write scope writer) := by
  -- The writer stays on the scope from one operation to the next.
  induction script generalizing writer with
  | done value => exact confined_pure _ _
  | refuse cause => exact confined_throw _ _
  | step operation next ih =>
    subst hscope
    refine (confined_operation operation writer).bind_of_returns ?_
    rintro ⟨result, writer'⟩ ⟨db, db', hwrite⟩
    exact ih result writer' (scope_of_operation hwrite)

theorem confined_runScript (scope : Scope) (now : Timestamp) (script : Script α) :
    Confined (.sync scope) (runScript scope now script) := by
  refine Confined.transaction ?_
  -- The clock is taken up from the latest time in the scope itself.
  simp only [Writer.start, bind_assoc, pure_bind]
  exact (confined_run_of_none rfl _).bind fun _ => (confined_highWater scope).bind fun _ =>
    (confined_script script ⟨_, _, _⟩ rfl).map _

/-- Every call on a sync table is confined to it. -/
theorem confined_performSync (limits : Limits) (scope : Scope) (now : Timestamp)
    (call : SyncCall) : Confined (.sync scope) (performSync limits scope now call) := by
  cases hscript : call.script? with
  | some script =>
    rw [performSync_of_script hscript]
    exact (confined_check _ _).bind fun _ => confined_runScript scope now script
  | none =>
    cases call with
    | rows => exact (confined_liveRows scope).map _
    | row id => exact (confined_getLive scope id).map _
    | snapshot => exact (confined_snapshot scope).map _
    | changesSince base =>
      have hchanges : Confined (.sync scope) (changesSince scope base) :=
        (confined_changesAfter scope base).map _
      exact hchanges.map _
    | put | delete | sync | push | replace | putIfRecent | deleteIfRecent => cases hscript

/-! ## Local tables -/

theorem confined_readLocalRows (ref : TableRef) (rows : List (RowId × String)) :
    Confined ref (readLocalRows rows) := by
  induction rows with
  | nil => exact confined_pure ref _
  | cons entry rest ih =>
    obtain ⟨id, text⟩ := entry
    rw [readLocalRows]
    split
    · exact ih.map _
    · exact confined_throw ref _

theorem confined_localRow (scope : Scope) (id : RowId) :
    Confined (.onLocal scope) (localRow scope id) := by
  refine (confined_check _ _).bind fun _ => (confined_run_on rfl).bind fun rows =>
    (confined_readLocalRows _ rows).bind fun found => ?_
  split
  · exact confined_pure _ _
  · exact confined_throw _ _

theorem confined_deleteLocal (scope : Scope) (id : RowId) :
    Confined (.onLocal scope) (deleteLocal scope id) := by
  refine (confined_check _ _).bind fun _ => (confined_run_on rfl).bind fun count => ?_
  split
  · exact confined_throw _ _
  · exact confined_pure _ _

/-- Every call on a local table is confined to it. -/
theorem confined_performLocal (scope : Scope) (call : LocalCall) :
    Confined (.onLocal scope) (performLocal scope call) := by
  cases call with
  | rows =>
    have hrows : Confined (.onLocal scope) (localRows scope) :=
      (confined_run_on rfl).bind (confined_readLocalRows _)
    exact hrows.map _
  | row id => exact (confined_localRow scope id).map _
  | put row =>
    have hput : Confined (.onLocal scope) (putLocal scope row) :=
      (confined_check _ _).bind fun _ => (confined_run_on rfl).map _
    exact hput.map _
  | delete id => exact (confined_deleteLocal scope id).map _

end Database

end RowSync
