import RowSync.Database.Local
import RowSync.Proofs.Database.Reads
import RowSync.Proofs.PlainTables

/-!
# Local Tables in a Database

A database answers calls on local tables as plain tables do, as long as it keeps what the calls name
and write (`Database.HoldsPlain.localStep`). That is needed: a row that is put and then asked for is
told as it was put only if it is kept (`Database.put_row_told_iff`).
-/

namespace RowSync

/-- The database keeps what the call names and writes. -/
def LocalCall.IsKept : LocalCall → Prop
  | .rows => True
  | .row id | .delete id => NulFree id
  | .put given => NulFree given.id ∧ given.fields.IsKept

instance LocalCall.decidableIsKept (call : LocalCall) : Decidable call.IsKept :=
  match call with
  | .rows => inferInstanceAs (Decidable True)
  | .row id | .delete id => inferInstanceAs (Decidable (NulFree id))
  | .put given => inferInstanceAs (Decidable (NulFree given.id ∧ given.fields.IsKept))

namespace Database

variable {db : Database} {tables : PlainTables} {scope : Scope} {id : RowId} {given : FlatRow}
  {act : LocalAct}

/-- Answer a call as a backend does. -/
def localStep (db : Database) (act : LocalAct) : Except CallError LocalReply × Database :=
  performLocal act.scope act.call db

/-- Statements succeed, and the texts of the local rows are those of the fields of the maps. -/
structure HoldsPlain (db : Database) (tables : PlainTables) : Prop where
  /-- Statements succeed. -/
  healthy : db.Healthy
  /-- The texts are those of the fields. -/
  rows : ∀ scope, scopeRows db.tables.localRows scope = (tables scope).mapValues payloadText
  /-- The fields are such as are kept. -/
  kept : ∀ {scope id fields}, (tables scope).get? id = some fields → fields.IsKept

theorem holdsPlain_empty : HoldsPlain ∅ PlainTables.empty where
  healthy := ⟨rfl, rfl⟩
  rows _ := rfl
  kept h := by cases h

/-! ## Reads -/

/-- Texts of fields that are kept read back as the fields. -/
theorem readLocalRows_map {entries : List (RowId × Payload)} (h : ∀ entry ∈ entries, entry.2.IsKept)
    (db : Database) : readLocalRows (entries.map fun entry => (entry.1, payloadText entry.2)) db =
      (.ok (entries.map fun entry => ⟨entry.1, entry.2⟩), db) := by
  induction entries with
  | nil => rfl
  | cons entry rest ih =>
    have hfirst : readPayload? (payloadText entry.2) = some entry.2 := (h entry (by simp)).reads
    have hrest := ih fun other hother => h other (by simp [hother])
    rw [List.map_cons, readLocalRows]
    simp only [hfirst]
    rw [bind_of_ok hrest]
    rfl

/-- A local row can be asked for just if its scope is kept and its id has no U+0000. -/
theorem hasNul_localRow :
    (Statement.localRow scope id).hasNul = false ↔ scope.IsKept ∧ NulFree id := by
  rw [hasNul_eq_false_iff, Scope.isKept_iff]
  simp [Statement.texts, Statement.payload?, and_assoc]

/-- A local row can be written just if its scope is kept and neither its id nor its payload has
U+0000. -/
theorem hasNul_writeLocalRow : (Statement.writeLocalRow scope given).hasNul = false ↔
    scope.IsKept ∧ NulFree given.id ∧ jsonHasNul given.fields.toJson = false := by
  rw [hasNul_eq_false_iff, Scope.isKept_iff]
  simp [Statement.texts, Statement.payload?, and_assoc]

theorem hasNul_deleteLocalRow :
    (Statement.deleteLocalRow scope id).hasNul = false ↔ scope.IsKept ∧ NulFree id := by
  rw [hasNul_eq_false_iff, Scope.isKept_iff]
  simp [Statement.texts, Statement.payload?, and_assoc]

/-- The fields that a local row is told with, given the text that is stored under its id. -/
def localRowOf (id : RowId) : Option String → Except CallError FlatRow
  | some text =>
    match readPayload? text with
    | some fields => .ok ⟨id, fields⟩
    | none => .error .database
  | none => .error (.refused (.rowNotFound id))

/-- The row with an id is read from the text that is stored under it. -/
theorem localRow_eq (h : db.Healthy) (hscope : scope.IsKept) (hid : NulFree id)
    (hvalid : checkRowId id = .ok ()) : localRow scope id db =
      (localRowOf id (db.tables.localRows.get? (.ofScope scope id)), db) := by
  have hrun : run (.localRow scope id) db =
      (.ok ((db.tables.localRows.get? (.ofScope scope id)).map fun text => (id, text)).toList,
        db) := by
    rw [run_eq h (hasNul_localRow.2 ⟨hscope, hid⟩), ← get?_scopeRows, ← OrderedMap.filter_toList_eq]
    rfl
  rw [localRow, hvalid]
  show (run (.localRow scope id) >>= _) db = _
  rw [bind_of_ok hrun]
  cases db.tables.localRows.get? (.ofScope scope id) with
  | none => rfl
  | some text =>
    rw [localRowOf, Option.map_some, Option.toList_some, readLocalRows]
    cases readPayload? text <;> rfl

/-- The rows of a scope are those of its map, in the order of their ids. -/
theorem HoldsPlain.localRows_eq (h : db.HoldsPlain tables) (hscope : scope.IsKept) :
    localRows scope db =
      (.ok ((tables scope).toList.map fun entry => ⟨entry.1, entry.2⟩), db) := by
  have hlist : Tables.ofScope db.tables.localRows scope =
      (tables scope).toList.map fun entry => (entry.1, payloadText entry.2) :=
    congrArg OrderedMap.toList (h.rows scope)
  have hrun : run (.localRows scope) db =
      (.ok ((tables scope).toList.map fun entry => (entry.1, payloadText entry.2)), db) := by
    rw [run_eq h.healthy ((hasNul_ofScope rfl rfl).2 hscope), Statement.eval, hlist]
  rw [localRows, bind_of_ok hrun]
  exact readLocalRows_map (fun entry hentry => h.kept (OrderedMap.get?_eq_some_iff.2 hentry)) db

/-- The text under an id is that of the fields of the map. -/
theorem HoldsPlain.get?_eq (h : db.HoldsPlain tables) (scope : Scope) (id : RowId) :
    db.tables.localRows.get? (.ofScope scope id) = ((tables scope).get? id).map payloadText := by
  rw [← get?_scopeRows, h.rows, OrderedMap.get?_mapValues]

/-- The row with an id is that of the map. -/
theorem HoldsPlain.localRow_eq (h : db.HoldsPlain tables) (hscope : scope.IsKept)
    (hid : NulFree id) (hvalid : checkRowId id = .ok ()) :
    localRow scope id db = ((tables.row scope id).mapError .refused, db) := by
  rw [Database.localRow_eq h.healthy hscope hid hvalid, h.get?_eq, PlainTables.row]
  cases hfields : (tables scope).get? id with
  | none => rfl
  | some fields =>
    rw [Option.map_some, localRowOf, (h.kept hfields).reads]
    rfl

/-! ## Writes -/

/-- Changing what is stored of one scope changes the map of that scope. -/
theorem HoldsPlain.update (h : db.HoldsPlain tables) {localRows : OrderedMap RowKey String}
    {fields : OrderedMap RowId Payload}
    (hself : scopeRows localRows scope = fields.mapValues payloadText)
    (hothers : ∀ other ≠ scope, scopeRows localRows other = scopeRows db.tables.localRows other)
    (hkept : ∀ {id kept}, fields.get? id = some kept → kept.IsKept) :
    HoldsPlain { db with tables := { db.tables with localRows } }
      (Function.update tables scope fields) where
  healthy := ⟨h.healthy.isReachable, h.healthy.noFault⟩
  rows other := by
    by_cases hother : other = scope
    · subst hother
      rw [Function.update_self]
      exact hself
    · rw [Function.update_of_ne hother, ← h.rows]
      exact hothers other hother
  kept {other id found} hfound := by
    by_cases hother : other = scope
    · subst hother
      rw [Function.update_self] at hfound
      exact hkept hfound
    · rw [Function.update_of_ne hother] at hfound
      exact h.kept hfound

/-- The database after a local row was written. -/
def withLocalRow (db : Database) (scope : Scope) (given : FlatRow) : Database :=
  { db with tables := { db.tables with
    localRows := db.tables.localRows.insert (.ofScope scope given.id) (payloadText given.fields) } }

/-- A row that can be written is told as it was given. -/
theorem putLocal_eq (h : db.Healthy) (hscope : scope.IsKept) (hid : NulFree given.id)
    (hnul : jsonHasNul given.fields.toJson = false) (hvalid : checkRowId given.id = .ok ()) :
    putLocal scope given db = (.ok given, db.withLocalRow scope given) := by
  have hrun : run (.writeLocalRow scope given) db = (.ok (), db.withLocalRow scope given) :=
    run_eq h (hasNul_writeLocalRow.2 ⟨hscope, hid, hnul⟩)
  rw [putLocal, hvalid]
  show (run (.writeLocalRow scope given) >>= _) db = _
  rw [bind_of_ok hrun]
  rfl

/-- A row that is written and kept is put in the map of its scope. -/
theorem HoldsPlain.withLocalRow (h : db.HoldsPlain tables) (scope : Scope)
    (hkept : given.fields.IsKept) : HoldsPlain (db.withLocalRow scope given)
      (Function.update tables scope ((tables scope).insert given.id given.fields)) := by
  refine h.update ?_ (fun other hother => scopeRows_insert_of_ne hother _ _ _)
    fun {id kept} hget => ?_
  · rw [scopeRows_insert_self, h.rows, OrderedMap.insert_mapValues]
  · rw [OrderedMap.get?_insert] at hget
    split at hget
    · cases hget
      exact hkept
    · exact h.kept hget

/-- Deleting a row takes its id out of the map of its scope, and tells whether it was there. -/
theorem HoldsPlain.deleted (h : db.HoldsPlain tables) (hscope : scope.IsKept)
    (hid : NulFree id) (hvalid : checkRowId id = .ok ()) :
    (deleteLocal scope id db).1 = ((tables.row scope id).map fun _ => ()).mapError .refused ∧
      HoldsPlain (deleteLocal scope id db).2
        (Function.update tables scope ((tables scope).erase id)) := by
  have hrun := run_eq h.healthy (hasNul_deleteLocalRow.2 ⟨hscope, hid⟩)
  have hafter : HoldsPlain
      { db with tables := ((Statement.deleteLocalRow scope id).eval db.tables).2 }
      (Function.update tables scope ((tables scope).erase id)) := by
    refine h.update ?_ (fun other hother => scopeRows_erase_of_ne hother _ _)
      fun {id' kept} hget => ?_
    · rw [scopeRows_erase_self, h.rows, OrderedMap.erase_mapValues]
    · rw [OrderedMap.get?_erase] at hget
      split at hget
      · cases hget
      · exact h.kept hget
  -- The statement tells whether there was a row with the id.
  have hcount : ((Statement.deleteLocalRow scope id).eval db.tables).1 =
      if ((tables scope).get? id).isSome then 1 else 0 := by
    rw [Statement.eval, OrderedMap.contains, h.get?_eq, Option.isSome_map]
  rw [deleteLocal, hvalid]
  show ((run (.deleteLocalRow scope id) >>= _) db).1 = _ ∧ HoldsPlain
    ((run (.deleteLocalRow scope id) >>= _) db).2 _
  rw [bind_of_ok hrun, hcount, PlainTables.row]
  cases (tables scope).get? id with
  | none => exact ⟨rfl, hafter⟩
  | some fields => exact ⟨rfl, hafter⟩

/-! ## Calls -/

/-- A proper call is answered as by the maps, whose fields the database then holds, if the database
keeps what the call names and writes. -/
theorem HoldsPlain.localStep (h : db.HoldsPlain tables) (hproper : act.call.IsProper)
    (hscope : act.scope.IsKept) (hkept : act.call.IsKept) :
    (Database.localStep db act).1 = (tables.step act).1 ∧
      HoldsPlain (Database.localStep db act).2 (tables.step act).2 := by
  obtain ⟨now, scope, call⟩ := act
  cases call with
  | rows =>
    rw [Database.localStep, performLocal, bind_of_ok (h.localRows_eq hscope)]
    exact ⟨rfl, h⟩
  | row id =>
    have hid : NulFree id := hkept
    have hvalid : checkRowId id = .ok () := hproper
    have hrow := h.localRow_eq hscope hid hvalid
    rw [Database.localStep, performLocal, PlainTables.step, PlainTables.perform]
    cases hfields : tables.row scope id with
    | ok row =>
      rw [hfields] at hrow
      rw [bind_of_ok hrow]
      exact ⟨rfl, h⟩
    | error e =>
      rw [hfields] at hrow
      rw [bind_of_error hrow]
      exact ⟨rfl, h⟩
  | put given =>
    obtain ⟨hvalid, -⟩ := hproper
    obtain ⟨hid, hfields⟩ := hkept
    rw [Database.localStep, performLocal,
      bind_of_ok (putLocal_eq h.healthy hscope hid hfields.noNul hvalid)]
    exact ⟨rfl, h.withLocalRow scope hfields⟩
  | delete id =>
    have hid : NulFree id := hkept
    have hvalid : checkRowId id = .ok () := hproper
    obtain ⟨hdeleted, hafter⟩ := h.deleted hscope hid hvalid
    rw [Database.localStep, performLocal, PlainTables.step, PlainTables.perform]
    generalize hdelete : deleteLocal scope id db = outcome at hdeleted hafter
    obtain ⟨actual, db'⟩ := outcome
    dsimp only at hdeleted hafter
    cases hfields : tables.row scope id with
    | ok row =>
      rw [hfields] at hdeleted
      rw [hdeleted] at hdelete
      rw [bind_of_ok hdelete]
      exact ⟨rfl, hafter⟩
    | error e =>
      rw [hfields] at hdeleted
      rw [hdeleted] at hdelete
      rw [bind_of_error hdelete]
      exact ⟨rfl, hafter⟩

/-- Proper calls, however many, are answered as by the maps, if the database keeps what they name
and write. -/
theorem HoldsPlain.answers_runAll (h : db.HoldsPlain tables) {acts : List LocalAct}
    (hacts : ∀ act ∈ acts, act.call.IsProper ∧ act.scope.IsKept ∧ act.call.IsKept) :
    (runAll Database.localStep db acts).1 = (runAll PlainTables.step tables acts).1 := by
  refine (runAll_alike (fun rest db tables => (∀ act ∈ rest, act.call.IsProper ∧
    act.scope.IsKept ∧ act.call.IsKept) ∧ HoldsPlain db tables) ?_ ⟨hacts, h⟩).1
  rintro act rest db tables ⟨hrest, hholds⟩
  obtain ⟨hproper, hscope, hkept⟩ := hrest act List.mem_cons_self
  obtain ⟨hanswer, hafter⟩ := hholds.localStep hproper hscope hkept
  exact ⟨hanswer, fun other hother => hrest other (List.mem_cons_of_mem act hother), hafter⟩

/-- A row that is put in a database and then asked for is told as it was put both times just if the
database keeps it. -/
theorem put_row_told_iff (h : db.Healthy) (hvalid : checkRowId given.id = .ok ()) (scope : Scope)
    (now later : Timestamp) :
    (runAll localStep db [⟨now, scope, .put given⟩, ⟨later, scope, .row given.id⟩]).1 =
        [.ok (.row given), .ok (.row given)] ↔
      scope.IsKept ∧ NulFree given.id ∧ given.fields.IsKept := by
  by_cases hcan : scope.IsKept ∧ NulFree given.id ∧ jsonHasNul given.fields.toJson = false
  · obtain ⟨hscope, hid, hnul⟩ := hcan
    -- The row is written, and its text decides what is read.
    have hput : localStep db ⟨now, scope, .put given⟩ =
        (.ok (.row given), db.withLocalRow scope given) := by
      rw [localStep, performLocal, bind_of_ok (putLocal_eq h hscope hid hnul hvalid)]
      rfl
    have hget : (db.withLocalRow scope given).tables.localRows.get? (.ofScope scope given.id) =
        some (payloadText given.fields) := by
      rw [withLocalRow, OrderedMap.get?_insert, if_pos rfl]
    have hhealthy : (db.withLocalRow scope given).Healthy := ⟨h.isReachable, h.noFault⟩
    have hrow := localRow_eq hhealthy hscope hid hvalid
    rw [hget, localRowOf] at hrow
    rw [runAll_cons, runAll_cons, hput]
    simp only [runAll, localStep, performLocal]
    constructor
    · intro htold
      obtain ⟨-, htail⟩ := List.cons.inj htold
      obtain ⟨hsecond, -⟩ := List.cons.inj htail
      refine ⟨hscope, hid, hnul, ?_⟩
      cases hread : readPayload? (payloadText given.fields) with
      | some fields =>
        rw [hread] at hrow
        rw [bind_of_ok hrow] at hsecond
        have hfields : fields = given.fields :=
          congrArg FlatRow.fields (LocalReply.row.inj (Except.ok.inj hsecond))
        rw [hfields]
      | none =>
        rw [hread] at hrow
        rw [bind_of_error hrow] at hsecond
        cases hsecond
    · rintro ⟨-, -, hkept⟩
      rw [hkept.reads] at hrow
      rw [bind_of_ok hrow]
      rfl
  · refine iff_of_false (fun htold => ?_) fun hkept => hcan ⟨hkept.1, hkept.2.1, hkept.2.2.noNul⟩
    -- The row cannot be written.
    have hnul : (Statement.writeLocalRow scope given).hasNul = true :=
      Bool.eq_true_of_not_eq_false fun hfalse => hcan (hasNul_writeLocalRow.1 hfalse)
    have hput : putLocal scope given db = (.error .database, db) := by
      rw [putLocal, hvalid]
      show (run (.writeLocalRow scope given) >>= _) db = _
      exact bind_of_error (run_of_hasNul hnul db)
    have hstep : localStep db ⟨now, scope, .put given⟩ = (.error .database, db) := by
      rw [localStep, performLocal, bind_of_error hput]
    rw [runAll_cons, hstep] at htold
    obtain ⟨hfirst, -⟩ := List.cons.inj htold
    cases hfirst

end Database

end RowSync
