import RowSync.LocalTables
import RowSync.Proofs.Script.Names
import RowSync.Proofs.Script.Transaction

/-!
# Row Ids in Stores

A store is named validly (`Store.Named`) if every row in it has a valid id, its own one, and is in a
valid scope. Neither a transaction nor a table checks ids: what keeps a store so is that scripts
name valid ids where they may create rows (`Transaction.Named.run_script`). So every call on a valid
scope, on sync tables and on local tables, leaves the store validly named and tells valid ids
(`Store.Named.performSync`, `Store.Named.performLocal`).
-/

namespace RowSync

variable {txn after : Transaction} {store : Store} {scope : Scope} {id : RowId} {row : Row}
  {α β : Type}

/-- The row ids that a reply of a local table tells. -/
def LocalReply.rowIds : LocalReply → List RowId
  | .rows told => told.map FlatRow.id
  | .row told => [told.id]
  | .done => []

/-- The row that is found under an id has this id, and the id is valid. -/
def NamedAs (id : RowId) (row : Row) : Prop := row.id = id ∧ id.IsValid

theorem NamedAs.isValid (h : NamedAs id row) : row.id.IsValid := h.1.symm ▸ h.2

/-! ## Tables -/

namespace Table

variable {table : Table}

/-- Every row of the table has a valid id. -/
def Named (table : Table) : Prop := ∀ id row, table.get? id = some row → NamedAs id row

theorem Named.allValid_liveRows (h : table.Named) : AllValid (table.liveRows.map Row.id) := by
  intro id hid
  obtain ⟨row, hrow, rfl⟩ := List.mem_map.1 hid
  obtain ⟨key, hget⟩ := OrderedMap.mem_values_iff.1 (List.mem_of_mem_filter hrow)
  exact (h key row hget).isValid

/-- The change log lists rows of the table. -/
theorem Named.isValid_of_mem_rowsAfter (h : table.Named) {time : Timestamp}
    (hrow : row ∈ table.rowsAfter time) : row.id.IsValid := by
  obtain ⟨key, -, hget⟩ := List.mem_filterMap.1 hrow
  exact (h key.id row hget).isValid

theorem Named.commitRow (h : table.Named) (hrow : row.id.IsValid) :
    (table.commitRow row).Named := by
  intro id found hget
  rw [get?_commitRow] at hget
  split at hget
  · rename_i heq
    cases hget
    exact ⟨heq.symm, heq ▸ hrow⟩
  · exact h id found hget

theorem Named.remove (h : table.Named) (removed : RowId) : (table.remove removed).Named := by
  intro id found hget
  rw [get?_remove] at hget
  split at hget
  · cases hget
  · exact h id found hget

end Table

/-! ## Transactions -/

namespace Transaction

/-- Every row that the transaction sees has a valid id. -/
structure Named (txn : Transaction) : Prop where
  /-- The committed rows have. -/
  table : txn.table.Named
  /-- The staged rows have. -/
  staged : ∀ id row, txn.staged.get? id = some row → NamedAs id row

theorem named_start {table : Table} (h : table.Named) (now : Timestamp) : (start table now).Named :=
  ⟨h, nofun⟩

theorem Named.get? (h : txn.Named) (hget : txn.get? id = some row) : NamedAs id row := by
  rcases Option.or_eq_some_iff.1 hget with hstaged | ⟨-, hcommitted⟩
  · exact h.staged id row hstaged
  · exact h.table id row hcommitted

theorem Named.isValid_of_mem_staged (h : txn.Named) (hrow : row ∈ txn.staged.values) :
    row.id.IsValid := by
  obtain ⟨key, hget⟩ := OrderedMap.mem_values_iff.1 hrow
  exact (h.staged key row hget).isValid

theorem Named.allValid_liveIds (h : txn.Named) : AllValid txn.liveIds := by
  intro id hid
  rw [liveIds, List.mem_mergeSort] at hid
  obtain ⟨row, hrow, rfl⟩ := List.mem_map.1 hid
  -- A live row is a committed one or a staged one.
  rcases List.mem_append.1 hrow with hcommitted | hstaged
  · exact h.table.allValid_liveRows _ (List.mem_map_of_mem (List.mem_of_mem_filter hcommitted))
  · exact h.isValid_of_mem_staged (List.mem_of_mem_filter hstaged)

theorem Named.allValid_changesAfter (h : txn.Named) (time : Timestamp) :
    AllValid ((txn.changesAfter time).map Row.id) := by
  intro id hid
  obtain ⟨row, hrow, rfl⟩ := List.mem_map.1 hid
  rcases List.mem_append.1 hrow with hcommitted | hstaged
  · exact h.table.isValid_of_mem_rowsAfter (List.mem_of_mem_filter hcommitted)
  · rw [mem_inChangeOrder] at hstaged
    exact h.isValid_of_mem_staged (List.mem_of_mem_filter hstaged)

theorem Named.stage (h : txn.Named) (hrow : row.id.IsValid) : (txn.stage row).Named := by
  refine ⟨h.table, fun id found hget => ?_⟩
  rw [Transaction.stage, OrderedMap.get?_insert] at hget
  split at hget
  · rename_i heq
    cases hget
    exact ⟨heq.symm, heq ▸ hrow⟩
  · exact h.staged id found hget

/-- Assigning a timestamp leaves the rows as they are. -/
theorem Named.tick (h : txn.Named) {claim : Option Timestamp} {time : Timestamp}
    (htick : txn.tick claim = .ok (time, after)) :
    after.Named ∧ ∀ id, after.get? id = txn.get? id := by
  obtain ⟨⟨_, clock⟩, -, htick⟩ := bind_eq_ok_iff.1 htick
  cases htick
  exact ⟨⟨h.table, h.staged⟩, fun _ => rfl⟩

/-- Writing a payload under a valid id stages a row with this id. -/
theorem Named.upsert (h : txn.Named) (hid : id.IsValid) {payload : Payload}
    {claim : Option Timestamp} (hok : txn.upsert id payload claim = .ok (row, after)) :
    row.id.IsValid ∧ after.Named := by
  obtain ⟨⟨time, ticked⟩, htick, hok⟩ := bind_eq_ok_iff.1 hok
  obtain ⟨hticked, hget⟩ := h.tick htick
  -- A row that was found under the id has it for its own, so that the new state of it has, too.
  have hrow : row.id = id ∧ after = ticked.stage row := by
    cases hfound : txn.get? id with
    | none =>
      simp only [hget, hfound] at hok
      cases hok
      exact ⟨rfl, rfl⟩
    | some before =>
      simp only [hget, hfound] at hok
      cases hok
      exact ⟨(h.get? hfound).1, rfl⟩
  obtain ⟨heq, rfl⟩ := hrow
  rw [heq]
  exact ⟨hid, hticked.stage (heq.symm ▸ hid)⟩

/-- A row is deleted under the id that it was found under. -/
theorem Named.delete (h : txn.Named) {claim : Option Timestamp}
    (hok : txn.delete id claim = .ok (row, after)) : row.id.IsValid ∧ after.Named := by
  rw [Transaction.delete] at hok
  cases hfound : txn.get? id with
  | none =>
    rw [hfound] at hok
    cases hok
  | some before =>
    rw [hfound] at hok
    obtain ⟨⟨time, ticked⟩, htick, hok⟩ := bind_eq_ok_iff.1 hok
    cases hok
    have hvalid : (before.entomb time).id.IsValid := (h.get? hfound).isValid
    exact ⟨hvalid, (h.tick htick).1.stage hvalid⟩

/-- An operation that names a valid id, if any, tells valid ids. -/
theorem Named.run_operation (h : txn.Named) {operation : Operation α}
    (hnames : operation.NamesValid) {result : α} (hrun : operation.run txn = .ok (result, after)) :
    AllValid (operation.told result) ∧ after.Named := by
  cases operation with
  | row id =>
    cases hrun
    refine ⟨fun told htold => ?_, h⟩
    obtain ⟨row, hrow, rfl⟩ := List.mem_map.1 htold
    exact (h.get? (Option.mem_toList.1 hrow)).isValid
  | liveIds =>
    cases hrun
    exact ⟨h.allValid_liveIds, h⟩
  | changesAfter time =>
    cases hrun
    exact ⟨h.allValid_changesAfter time, h⟩
  | highWater =>
    cases hrun
    exact ⟨allValid_nil, h⟩
  | upsert id payload claim =>
    obtain ⟨hvalid, hafter⟩ := h.upsert hnames hrun
    exact ⟨allValid_singleton.2 hvalid, hafter⟩
  | delete id claim =>
    obtain ⟨hvalid, hafter⟩ := h.delete hrun
    exact ⟨allValid_singleton.2 hvalid, hafter⟩

/-- A script that names valid ids tells valid ids, by induction on its operations. -/
theorem Named.run_script (h : txn.Named) {script : Script α} {tell : α → List RowId}
    (hscript : script.NamesValid tell) {value : α} (hrun : script.run txn = .ok (value, after)) :
    AllValid (tell value) ∧ after.Named := by
  induction script generalizing txn with
  | done value =>
    cases hrun
    exact ⟨hscript, h⟩
  | refuse cause => cases hrun
  | step operation next ih =>
    obtain ⟨⟨result, middle⟩, hfirst, hrest⟩ := bind_eq_ok_iff.1 hrun
    obtain ⟨htold, hmiddle⟩ := h.run_operation hscript.1 hfirst
    exact ih result hmiddle (hscript.2 result htold) hrest

/-- Committing the staged rows keeps the table validly named. -/
theorem Named.commit (h : txn.Named) : txn.commit.Named := by
  -- Rows are committed one after the other, to a table that is validly named each time.
  have hrows {rows : List Row} {table : Table} (htable : table.Named)
      (hvalid : ∀ row ∈ rows, row.id.IsValid) : (rows.foldl Table.commitRow table).Named := by
    induction rows generalizing table with
    | nil => exact htable
    | cons first rest ih =>
      obtain ⟨hfirst, hrest⟩ := List.forall_mem_cons.1 hvalid
      exact ih (htable.commitRow hfirst) hrest
  exact hrows h.table fun row hrow => h.isValid_of_mem_staged hrow

end Transaction

/-! ## Stores -/

namespace Store

/-- Every row of the store is in a valid scope and has a valid id. -/
def Named (store : Store) : Prop :=
  ∀ scope id row, (store.table scope).get? id = some row → scope.IsValid ∧ NamedAs id row

theorem named_empty : (∅ : Store).Named := nofun

theorem Named.table (h : store.Named) (scope : Scope) : (store.table scope).Named :=
  fun id row hget => (h scope id row hget).2

/-- Putting back the table of a valid scope keeps the store validly named. -/
theorem Named.settle (h : store.Named) (hscope : scope.IsValid) {table : Table}
    (htable : table.Named) : (store.settle scope table).Named := by
  refine forall_table_settle
    (fun other table => ∀ id row, table.get? id = some row → other.IsValid ∧ NamedAs id row)
    ?htable ?hempty ?hothers
  case htable => exact fun id row hget => ⟨hscope, htable id row hget⟩
  case hempty =>
    -- Nothing is found in an empty table.
    intro _ id row hget
    cases hget
  case hothers => exact fun other _ => h other

/-- The store is validly named after an operation, and what the operation tells are valid ids. -/
structure Tells (tell : α → List RowId) (outcome : Except SyncError α × Store) : Prop where
  /-- The store is validly named. -/
  named : outcome.2.Named
  /-- All ids that are told are valid. -/
  told : ∀ value, outcome.1 = .ok value → AllValid (tell value)

variable {tell : α → List RowId}

/-- An operation that fails tells nothing. -/
theorem Named.tells_error (h : store.Named) (e : SyncError) :
    Tells tell ((.error e : Except SyncError α), store) :=
  ⟨h, nofun⟩

/-- Looking at the store leaves it as it is. -/
theorem Named.tells_ok (h : store.Named) {value : α} (hvalue : AllValid (tell value)) :
    Tells tell ((.ok value : Except SyncError α), store) := by
  refine ⟨h, fun told htold => ?_⟩
  cases htold
  exact hvalue

/-- A transaction on a valid scope tells what its body tells. -/
theorem Named.tells_transact (h : store.Named) (hscope : scope.IsValid) (now : Timestamp)
    {body : Transaction → Except SyncError (α × Transaction)}
    (hbody : ∀ txn value after, txn.Named → body txn = .ok (value, after) →
      AllValid (tell value) ∧ after.Named) :
    Tells tell (store.transact scope now body) := by
  rw [transact]
  split
  · rename_i value after hrun
    obtain ⟨htold, hafter⟩ :=
      hbody _ _ _ (Transaction.named_start (h.table scope) now) hrun
    exact (h.settle hscope hafter.commit).tells_ok htold
  · exact (h.settle hscope (h.table scope)).tells_error _

theorem Named.tells_guarded (h : store.Named) {check : Except SyncError Unit}
    {action : Store → Except SyncError α × Store}
    (haction : check = .ok () → Tells tell (action store)) :
    Tells tell (store.guarded check action) := by
  cases check with
  | ok _ => exact haction rfl
  | error e => exact h.tells_error e

/-- Telling the result as a reply tells the same ids. -/
theorem Tells.mapReply {outcome : Except SyncError α × Store} (h : Tells tell outcome)
    {reply : α → β} {tell' : β → List RowId} (heq : ∀ value, tell' (reply value) = tell value) :
    Tells tell' (RowSync.mapReply reply outcome) := by
  refine ⟨h.named, fun value hvalue => ?_⟩
  obtain ⟨result, hresult, rfl⟩ := map_eq_ok_iff.1 hvalue
  rw [heq]
  exact h.told result hresult

/-- A row that is found has a valid id. -/
theorem Named.isValid_of_get (h : store.Named) (hget : store.get scope id = .ok row) :
    row.id.IsValid := by
  obtain ⟨_, -, hget⟩ := bind_eq_ok_iff.1 hget
  split at hget
  · rename_i found hfound
    cases hget
    exact (h.table scope id row (Option.filter_eq_some_iff.1 hfound).1).isValid
  · cases hget

/-- Every call on a sync table of a valid scope tells valid ids. -/
theorem Named.performSync (h : store.Named) (hscope : scope.IsValid) (limits : Limits)
    (now : Timestamp) (call : SyncCall) :
    Tells SyncReply.rowIds (SyncTables.perform limits store scope now call) := by
  cases hscript : call.script? with
  | some script =>
    rw [SyncTables.perform_of_script hscript]
    refine h.tells_guarded fun hcheck =>
      h.tells_transact hscope now fun txn value after htxn hrun => ?_
    exact htxn.run_script (SyncCall.namesValid_script hcheck hscript) hrun
  | none =>
    have hlive := (h.table scope).allValid_liveRows
    cases call with
    | rows => exact h.tells_ok hlive
    | row id =>
      refine ⟨h, fun reply hreply => ?_⟩
      obtain ⟨row, hrow, rfl⟩ := map_eq_ok_iff.1 hreply
      exact allValid_singleton.2 (h.isValid_of_get hrow)
    | snapshot => exact h.tells_ok (SyncReply.allValid_report hlive allValid_nil)
    | changesSince base =>
      refine h.tells_ok (SyncReply.allValid_report (fun id hid => ?_) allValid_nil)
      obtain ⟨row, hrow, rfl⟩ := List.mem_map.1 hid
      exact (h.table scope).isValid_of_mem_rowsAfter hrow
    | put | delete | sync | push | replace | putIfRecent | deleteIfRecent => cases hscript

/-- Every call on a local table of a valid scope tells valid ids. -/
theorem Named.performLocal (h : store.Named) (hscope : scope.IsValid) (now : Timestamp)
    (call : LocalCall) : Tells LocalReply.rowIds (LocalTables.perform store scope now call) := by
  cases call with
  | rows =>
    refine h.tells_ok fun id hid => ?_
    rw [LocalReply.rowIds, LocalTables.rows, List.map_map] at hid
    exact (h.table scope).allValid_liveRows id hid
  | row id =>
    refine ⟨h, fun reply hreply => ?_⟩
    obtain ⟨flat, hflat, rfl⟩ := map_eq_ok_iff.1 hreply
    obtain ⟨row, hrow, rfl⟩ := map_eq_ok_iff.1 hflat
    exact allValid_singleton.2 (h.isValid_of_get hrow)
  | put given =>
    have hupsert : Tells (fun row : Row => [row.id])
        (store.upsert scope now given.id given.fields) := by
      refine h.tells_guarded fun hcheck =>
        h.tells_transact hscope now fun txn row after htxn hrun => ?_
      obtain ⟨hvalid, hafter⟩ := htxn.upsert (checkRowId_eq_ok_iff.1 hcheck) hrun
      exact ⟨allValid_singleton.2 hvalid, hafter⟩
    have hput : Tells (fun flat => [flat.id]) (LocalTables.put store scope now given) :=
      hupsert.mapReply fun _ => rfl
    exact hput.mapReply fun _ => rfl
  | delete id =>
    have hremove : Tells (fun _ : Row => []) (store.remove scope id) := by
      refine h.tells_guarded fun _ => ?_
      cases htables : store.tables.get? scope with
      | none => exact h.tells_error _
      | some table =>
        have htable : store.table scope = table := by rw [Store.table, htables, Option.getD_some]
        have hafter := h.settle hscope ((htable ▸ h.table scope).remove id)
        dsimp only
        split
        · exact hafter.tells_ok allValid_nil
        · exact hafter.tells_error _
    have hdelete : Tells (fun _ => []) (LocalTables.delete store scope id) :=
      hremove.mapReply fun _ => rfl
    exact hdelete.mapReply fun _ => rfl

end Store

end RowSync
