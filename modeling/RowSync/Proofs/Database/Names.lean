import RowSync.Proofs.Database.Script
import RowSync.Proofs.StoreNames

/-!
# Row Ids in a Database

The tables of a database are validly named (`Database.Tables.Named`) if all keys in both tables are
valid. A session tells what has a property (`Database.Tells`) if from validly named tables it goes
to validly named tables, whether it succeeds or fails, and returns only what has the property.
Writers do not check ids; every call on a valid scope tells valid ids all the same
(`Database.tells_performSync`, `Database.tells_performLocal`), since what is read has valid ids and
calls check those that they bring.
-/

namespace RowSync.Database

variable {scope : Scope} {tables : Tables} {id : RowId} {α β : Type} {post : α → Prop}
  {post' : β → Prop}

/-! ## Tables -/

/-- The key has the names of a valid scope and a valid row id. -/
structure RowKey.IsValid (key : RowKey) : Prop where
  /-- The scope is valid. -/
  scope : Scope.IsValid ⟨key.table, key.user⟩
  /-- The row id is valid. -/
  id : key.id.IsValid

/-- All keys are valid. -/
structure Tables.Named (tables : Tables) : Prop where
  /-- Those of sync tables are. -/
  syncRows : ∀ key stored, tables.syncRows.get? key = some stored → key.IsValid
  /-- Those of local tables are. -/
  localRows : ∀ key text, tables.localRows.get? key = some text → key.IsValid

theorem Tables.named_empty : (∅ : Tables).Named := ⟨nofun, nofun⟩

/-- Rows with valid keys, with one more under a valid key. -/
theorem isValid_of_get?_insert {rows : OrderedMap RowKey α} {value : α}
    (hrows : ∀ key value, rows.get? key = some value → key.IsValid) (hscope : scope.IsValid)
    (hid : id.IsValid) :
    ∀ key found, (rows.insert (.ofScope scope id) value).get? key = some found → key.IsValid := by
  intro key found hget
  rw [OrderedMap.get?_insert] at hget
  split at hget
  · rename_i heq
    subst heq
    exact ⟨hscope, hid⟩
  · exact hrows key found hget

/-- What is listed of a scope has valid ids, if all keys are valid. -/
theorem allValid_ofScope {rows : OrderedMap RowKey α}
    (hrows : ∀ key value, rows.get? key = some value → key.IsValid) (scope : Scope) :
    AllValid ((Tables.ofScope rows scope).map Prod.fst) := by
  intro id hid
  obtain ⟨⟨found, value⟩, hmem, rfl⟩ := List.mem_map.1 hid
  exact (hrows _ value (mem_ofScope_iff.1 hmem)).id

/-! ## Sessions -/

/-- From validly named tables the session goes to validly named tables, and what it returns has the
property. -/
structure Tells (post : α → Prop) (session : Session α) : Prop where
  /-- The tables stay validly named. -/
  named : ∀ db, db.tables.Named → (session db).2.tables.Named
  /-- What is returned has the property. -/
  told : ∀ db value db', db.tables.Named → session db = (.ok value, db') → post value

theorem tells_pure {value : α} (h : post value) : Tells post (pure value) := by
  refine ⟨fun _ hdb => hdb, fun db told db' _ heq => ?_⟩
  cases heq
  exact h

theorem tells_throw (e : CallError) : Tells post (throw e : Session α) :=
  ⟨fun _ hdb => hdb, fun _ _ _ _ heq => by cases heq⟩

theorem tells_check {outcome : Except SyncError α} (h : ∀ value, outcome = .ok value → post value) :
    Tells post (check outcome) := by
  cases outcome with
  | ok value => exact tells_pure (h value rfl)
  | error e => exact tells_throw _

theorem tells_checkRowId (id : RowId) : Tells (fun _ => id.IsValid) (check (checkRowId id)) :=
  tells_check fun _ h => checkRowId_eq_ok_iff.1 h

/-- A statement tells what its evaluation returns. -/
theorem tells_run {statement : Statement α}
    (h : ∀ tables, tables.Named →
      (statement.eval tables).2.Named ∧ post (statement.eval tables).1) :
    Tells post (run statement) := by
  refine ⟨fun db hdb => ?_, fun db value db' hdb heq => ?_⟩ <;>
    rcases run_cases statement db with ⟨e, after, hrun, htables⟩ | ⟨after, hrun, htables⟩
  · rw [hrun, htables]
    exact hdb
  · rw [hrun, htables]
    exact (h db.tables hdb).1
  · rw [hrun] at heq
    cases heq
  · rw [hrun] at heq
    cases heq
    exact (h db.tables hdb).2

/-- A statement that reads. -/
theorem tells_run_reading {statement : Statement α}
    (hreads : ∀ tables, (statement.eval tables).2 = tables)
    (h : ∀ tables, tables.Named → post (statement.eval tables).1) : Tells post (run statement) := by
  refine tells_run fun tables hnamed => ⟨?_, h tables hnamed⟩
  rw [hreads]
  exact hnamed

theorem Tells.bind {first : Session α} {next : α → Session β} (h : Tells post first)
    (hnext : ∀ value, post value → Tells post' (next value)) : Tells post' (first >>= next) := by
  refine ⟨fun db hdb => ?_, fun db result db' hdb heq => ?_⟩ <;>
    rcases bind_cases first next db with ⟨e, after, hfirst, hbind⟩ | ⟨value, after, hfirst, hbind⟩
  -- In either case the tables are validly named where the first part ends.
  · have hafter := h.named db hdb
    rw [hfirst] at hafter
    rwa [hbind]
  · have hafter := h.named db hdb
    rw [hfirst] at hafter
    rw [hbind]
    exact (hnext value (h.told db value after hdb hfirst)).named after hafter
  · rw [hbind] at heq
    cases heq
  · have hafter := h.named db hdb
    rw [hfirst] at hafter
    rw [hbind] at heq
    exact (hnext value (h.told db value after hdb hfirst)).told after result db' hafter heq

/-- A transaction tells what is told in it, and if it fails the tables are those of before. -/
theorem Tells.transaction {body : Session α} (h : Tells post body) :
    Tells post (transaction body) := by
  refine ⟨fun db hdb => ?_, fun db result db' hdb heq => ?_⟩ <;>
    rcases transaction_cases body db with
      ⟨e, after, hrun, htables⟩ | ⟨value, opened, ended, after, hopened, hbody, hrun, hended⟩
  · rw [hrun, htables]
    exact hdb
  · have hafter := h.named opened (hopened.symm ▸ hdb)
    rw [hbody] at hafter
    rw [hrun, hended]
    exact hafter
  · rw [hrun] at heq
    cases heq
  · rw [hrun] at heq
    cases heq
    exact h.told opened _ _ (hopened.symm ▸ hdb) hbody

/-! ## Reads -/

/-- Columns that are read give rows with their ids. -/
theorem tells_readRows {entries : List (RowId × StoredRow)} (h : AllValid (entries.map Prod.fst)) :
    Tells (fun rows => AllValid (rows.map Row.id)) (readRows entries) := by
  induction entries with
  | nil => exact tells_pure allValid_nil
  | cons entry rest ih =>
    obtain ⟨hfirst, hrest⟩ := List.forall_mem_cons.1 h
    obtain ⟨id, stored⟩ := entry
    rw [readRows]
    split
    · rename_i row hread
      refine (ih hrest).bind fun rows hrows => tells_pure ?_
      obtain ⟨payload, -, rfl⟩ := Option.map_eq_some_iff.1 hread
      exact List.forall_mem_cons.2 ⟨hfirst, hrows⟩
    · exact tells_throw _

/-- A statement that lists some of the rows of a scope, and then reads them. -/
theorem tells_run_readRows {statement : Statement (List (RowId × StoredRow))}
    (hreads : ∀ tables, (statement.eval tables).2 = tables)
    (hsub : ∀ tables, (statement.eval tables).1 ⊆ Tables.ofScope tables.syncRows scope) :
    Tells (fun rows => AllValid (rows.map Row.id)) (run statement >>= readRows) := by
  have hrun : Tells (fun entries => AllValid (entries.map Prod.fst)) (run statement) :=
    tells_run_reading hreads fun tables hnamed id hid =>
      allValid_ofScope hnamed.syncRows scope id (List.map_subset Prod.fst (hsub tables) hid)
  exact hrun.bind fun entries hentries => tells_readRows hentries

theorem tells_highWater (scope : Scope) : Tells (fun _ => True) (highWater scope) := by
  have hrun : Tells (fun _ => True) (run (.highWater scope)) :=
    tells_run_reading (fun _ => rfl) fun _ _ => trivial
  exact hrun.bind fun _ _ => tells_pure trivial

theorem tells_getRow? (scope : Scope) (id : RowId) :
    Tells (fun found => AllValid (found.toList.map Row.id)) (getRow? scope id) := by
  have hrows : Tells (fun rows => AllValid (rows.map Row.id))
      (run (.row scope id) >>= readRows) :=
    tells_run_readRows (fun _ => rfl) fun _ => List.filter_subset_self _
  have hhead : getRow? scope id = run (.row scope id) >>= readRows >>= fun rows =>
      pure rows.head? := (bind_assoc _ _ _).symm
  rw [hhead]
  refine hrows.bind fun rows hvalid => tells_pure fun told htold => ?_
  obtain ⟨row, hrow, rfl⟩ := List.mem_map.1 htold
  have hmem : row ∈ rows := List.mem_of_mem_head? (Option.mem_toList.1 hrow)
  exact hvalid _ (List.mem_map_of_mem hmem)

theorem tells_liveRows (scope : Scope) :
    Tells (fun rows => AllValid (rows.map Row.id)) (liveRows scope) :=
  tells_run_readRows (fun _ => rfl) fun _ => List.filter_subset_self _

theorem tells_changesAfter (scope : Scope) (time : Timestamp) :
    Tells (fun rows => AllValid (rows.map Row.id)) (changesAfter scope time) :=
  tells_run_readRows (fun _ => rfl) fun _ _ hmem =>
    List.mem_of_mem_filter (List.mem_mergeSort.1 hmem)

theorem tells_liveIds (scope : Scope) : Tells AllValid (run (.liveIds scope)) :=
  tells_run_reading (fun _ => rfl) fun _ hnamed id hid =>
    allValid_ofScope hnamed.syncRows scope id
      (List.map_subset Prod.fst (List.filter_subset_self _) hid)

theorem tells_lock (mode : LockMode) (scope : Scope) :
    Tells (fun _ => True) (run (.lock mode scope)) :=
  tells_run_reading (fun _ => rfl) fun _ _ => trivial

/-! ## Writers -/

section Writers

variable {writer : Writer} {claim : Option Timestamp}

/-- Assigning a timestamp does not change the scope. -/
theorem tells_tick (hwriter : writer.scope.IsValid) :
    Tells (fun told => told.2.scope.IsValid) (writer.tick claim) := by
  have hcheck : Tells (fun _ => True) (check (writer.clock.tick (claim.getD writer.now))) :=
    tells_check fun _ _ => trivial
  exact hcheck.bind fun _ _ => tells_pure hwriter

/-- What a writer tells of a row that was written. -/
def Stored (told : Row × Writer) : Prop := told.1.id.IsValid ∧ told.2.scope.IsValid

theorem tells_store (hwriter : writer.scope.IsValid) {row : Row} (hrow : row.id.IsValid) :
    Tells Stored (writer.store row) := by
  have hrun : Tells (fun _ => True) (run (.writeRow writer.scope row)) :=
    tells_run fun tables hnamed =>
      ⟨⟨isValid_of_get?_insert hnamed.syncRows hwriter hrow, hnamed.localRows⟩, trivial⟩
  exact hrun.bind fun _ _ => tells_pure ⟨hrow, hwriter⟩

theorem tells_upsert (hwriter : writer.scope.IsValid) (hid : id.IsValid) (payload : Payload) :
    Tells Stored (writer.upsert id payload claim) := by
  refine (tells_tick hwriter).bind fun told hticked => ?_
  obtain ⟨time, ticked⟩ := told
  refine (tells_getRow? ticked.scope id).bind fun found hfound => ?_
  -- The row that is stored has the id of the one that was found, or the one given.
  cases found with
  | some row => exact tells_store hticked (allValid_singleton.1 hfound)
  | none => exact tells_store hticked hid

theorem tells_delete (hwriter : writer.scope.IsValid) : Tells Stored (writer.delete id claim) := by
  refine (tells_getRow? writer.scope id).bind fun found hfound => ?_
  cases found with
  | none => exact tells_throw _
  | some row =>
    refine (tells_tick hwriter).bind fun told hticked => ?_
    obtain ⟨time, ticked⟩ := told
    exact tells_store hticked (allValid_singleton.1 hfound)

/-- An operation that names a valid id, if any, tells valid ids. -/
theorem tells_operation {operation : Operation α} (hnames : operation.NamesValid)
    (hwriter : writer.scope.IsValid) :
    Tells (fun told => AllValid (operation.told told.1) ∧ told.2.scope.IsValid)
      (operation.write scope writer) := by
  cases operation with
  | row id => exact (tells_getRow? scope id).bind fun _ hfound => tells_pure ⟨hfound, hwriter⟩
  | liveIds => exact (tells_liveIds scope).bind fun _ hlive => tells_pure ⟨hlive, hwriter⟩
  | changesAfter time =>
    exact (tells_changesAfter scope time).bind fun _ hrows => tells_pure ⟨hrows, hwriter⟩
  | highWater => exact tells_pure ⟨allValid_nil, hwriter⟩
  | upsert id payload claim =>
    have hupsert : Tells Stored (writer.upsert id payload claim) :=
      tells_upsert hwriter hnames payload
    -- Of a write the operation tells just the row that was stored.
    exact ⟨hupsert.named, fun db told db' hdb heq =>
      (hupsert.told db told db' hdb heq).imp_left allValid_singleton.2⟩
  | delete id claim =>
    have hdelete : Tells Stored (writer.delete id claim) := tells_delete hwriter
    exact ⟨hdelete.named, fun db told db' hdb heq =>
      (hdelete.told db told db' hdb heq).imp_left allValid_singleton.2⟩

/-- A script that names valid ids tells valid ids, by induction on its operations. -/
theorem tells_script {script : Script α} {tell : α → List RowId} (hscript : script.NamesValid tell)
    (hwriter : writer.scope.IsValid) :
    Tells (fun told => AllValid (tell told.1)) (script.write scope writer) := by
  induction script generalizing writer with
  | done value => exact tells_pure hscript
  | refuse cause => exact tells_throw _
  | step operation next ih =>
    refine (tells_operation hscript.1 hwriter).bind fun told htold => ?_
    exact ih told.1 (hscript.2 told.1 htold.1) htold.2

end Writers

/-! ## Calls on sync tables -/

theorem tells_runScript {script : Script α} {tell : α → List RowId}
    (hscript : script.NamesValid tell) (hscope : scope.IsValid) (now : Timestamp) :
    Tells (fun value => AllValid (tell value)) (runScript scope now script) := by
  have hstart : Tells (fun writer => writer.scope.IsValid) (Writer.start scope now) :=
    (tells_lock .exclusive scope).bind fun _ _ => (tells_highWater scope).bind fun _ _ =>
      tells_pure hscope
  refine Tells.transaction (hstart.bind fun writer hwriter => ?_)
  exact (tells_script hscript hwriter).bind fun told htold => tells_pure htold

theorem tells_getLive (scope : Scope) (id : RowId) :
    Tells (fun row => row.id.IsValid) (getLive scope id) := by
  refine (tells_checkRowId id).bind fun _ _ =>
    (tells_getRow? scope id).bind fun found hfound => ?_
  split
  · rename_i row hrow
    cases (Option.filter_eq_some_iff.1 hrow).1
    exact tells_pure (allValid_singleton.1 hfound)
  · exact tells_throw _

/-- Every call on a sync table of a valid scope tells valid ids. -/
theorem tells_performSync (hscope : scope.IsValid) (limits : Limits) (now : Timestamp)
    (call : SyncCall) :
    Tells (fun reply => AllValid reply.rowIds) (performSync limits scope now call) := by
  cases hscript : call.script? with
  | some script =>
    rw [performSync_of_script hscript]
    have hcheck : Tells (fun _ => call.check limits now = .ok ())
        (check (call.check limits now)) :=
      tells_check fun _ h => h
    exact hcheck.bind fun _ h =>
      tells_runScript (SyncCall.namesValid_script h hscript) hscope now
  | none =>
    cases call with
    | rows => exact (tells_liveRows scope).bind fun _ hrows => tells_pure hrows
    | row id =>
      exact (tells_getLive scope id).bind fun _ hrow => tells_pure (allValid_singleton.2 hrow)
    | snapshot =>
      have hsnapshot : Tells (fun told => AllValid (SyncReply.report told).rowIds)
          (snapshot scope) := by
        refine Tells.transaction ((tells_lock .shared scope).bind fun _ _ =>
          (tells_highWater scope).bind fun _ _ => (tells_liveRows scope).bind fun _ hrows => ?_)
        exact tells_pure (SyncReply.allValid_report hrows allValid_nil)
      exact hsnapshot.bind fun _ htold => tells_pure htold
    | changesSince base =>
      have hchanges : Tells (fun told => AllValid (SyncReply.report told).rowIds)
          (changesSince scope base) :=
        (tells_changesAfter scope base).bind fun _ hrows =>
          tells_pure (SyncReply.allValid_report hrows allValid_nil)
      exact hchanges.bind fun _ htold => tells_pure htold
    | put | delete | sync | push | replace | putIfRecent | deleteIfRecent => cases hscript

/-! ## Calls on local tables -/

theorem tells_readLocalRows {entries : List (RowId × String)}
    (h : AllValid (entries.map Prod.fst)) :
    Tells (fun rows => AllValid (rows.map FlatRow.id)) (readLocalRows entries) := by
  induction entries with
  | nil => exact tells_pure allValid_nil
  | cons entry rest ih =>
    obtain ⟨hfirst, hrest⟩ := List.forall_mem_cons.1 h
    obtain ⟨id, text⟩ := entry
    rw [readLocalRows]
    split
    · exact (ih hrest).bind fun rows hrows =>
        tells_pure (List.forall_mem_cons.2 ⟨hfirst, hrows⟩)
    · exact tells_throw _

/-- A statement that lists some of the local rows of a scope, and then reads them. -/
theorem tells_run_readLocalRows {statement : Statement (List (RowId × String))}
    (hreads : ∀ tables, (statement.eval tables).2 = tables)
    (hsub : ∀ tables, (statement.eval tables).1 ⊆ Tables.ofScope tables.localRows scope) :
    Tells (fun rows => AllValid (rows.map FlatRow.id)) (run statement >>= readLocalRows) := by
  have hrun : Tells (fun entries => AllValid (entries.map Prod.fst)) (run statement) :=
    tells_run_reading hreads fun tables hnamed id hid =>
      allValid_ofScope hnamed.localRows scope id (List.map_subset Prod.fst (hsub tables) hid)
  exact hrun.bind fun entries hentries => tells_readLocalRows hentries

/-- Every call on a local table of a valid scope tells valid ids. -/
theorem tells_performLocal (hscope : scope.IsValid) (call : LocalCall) :
    Tells (fun reply => AllValid reply.rowIds) (performLocal scope call) := by
  cases call with
  | rows =>
    have hrows : Tells (fun rows => AllValid (rows.map FlatRow.id)) (localRows scope) :=
      tells_run_readLocalRows (fun _ => rfl) fun _ => List.Subset.refl _
    exact hrows.bind fun _ hvalid => tells_pure hvalid
  | row id =>
    have hrow : Tells (fun row : FlatRow => row.id.IsValid) (localRow scope id) := by
      have hrows : Tells (fun rows => AllValid (rows.map FlatRow.id))
          (run (.localRow scope id) >>= readLocalRows) :=
        tells_run_readLocalRows (fun _ => rfl) fun _ => List.filter_subset_self _
      refine (tells_checkRowId id).bind fun _ _ => ?_
      -- The entries are read before the first of the rows is taken.
      rw [← bind_assoc]
      refine hrows.bind fun rows hvalid => ?_
      cases rows with
      | nil => exact tells_throw _
      | cons row rest => exact tells_pure (List.forall_mem_cons.1 hvalid).1
    exact hrow.bind fun _ hvalid => tells_pure (allValid_singleton.2 hvalid)
  | put given =>
    have hput : Tells (fun row : FlatRow => row.id.IsValid) (putLocal scope given) := by
      refine (tells_checkRowId given.id).bind fun _ hid => ?_
      have hrun : Tells (fun _ => True) (run (.writeLocalRow scope given)) :=
        tells_run fun tables hnamed =>
          ⟨⟨hnamed.syncRows, isValid_of_get?_insert hnamed.localRows hscope hid⟩, trivial⟩
      exact hrun.bind fun _ _ => tells_pure hid
    exact hput.bind fun _ hvalid => tells_pure (allValid_singleton.2 hvalid)
  | delete id =>
    have hdelete : Tells (fun _ => True) (deleteLocal scope id) := by
      have hrun : Tells (fun _ => True) (run (.deleteLocalRow scope id)) := by
        refine tells_run fun tables hnamed => ⟨⟨hnamed.syncRows, fun key text hget => ?_⟩, trivial⟩
        -- A row that is left was there before.
        rw [Statement.eval, OrderedMap.get?_erase] at hget
        split at hget
        · cases hget
        · exact hnamed.localRows key text hget
      refine (tells_checkRowId id).bind fun _ _ => hrun.bind fun count _ => ?_
      split
      · exact tells_throw _
      · exact tells_pure trivial
    exact hdelete.bind fun _ _ => tells_pure allValid_nil

end RowSync.Database
