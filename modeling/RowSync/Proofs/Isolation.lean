import RowSync.Proofs.Http.Tables
import RowSync.Proofs.Service
import RowSync.Proofs.StoreIsolation

/-!
# Isolation

Tables do not interfere. A backend has a part for every sync table and every local table of every
scope (`Backend.part`), and each request is confined to the part of the table that it is on
(`Service.confined_answer`). So of any run of requests those on other tables, be it of another scope
or of the other kind, can be left out: the answers to the rest and the content of the table are the
same (`Service.tables_isolated`).
-/

namespace RowSync

/-! ## Backends -/

/-- What a backend keeps of a table. -/
inductive TableContent where
  /-- What a store keeps of a scope, if it keeps the scope. -/
  | stored (table : Option Table)
  /-- What a database keeps of a scope. -/
  | rows (rows : Database.Rows)
deriving DecidableEq, Repr

namespace Backend

variable {ref : TableRef} {scope : Scope} {α : Type}

/-- What the stores of sync tables and of local tables keep of a table. -/
def keptOf : TableRef → Store × Store → Option Table
  | .sync scope, stores => stores.1.kept scope
  | .onLocal scope, stores => stores.2.kept scope

/-- The content of a table. -/
def content (ref : TableRef) : Backend → TableContent
  | memory syncStore localStore => .stored (keptOf ref (syncStore, localStore))
  | database db => .rows (Database.rowsOf ref db.tables)

/-- Whether the backend can be reached. -/
def isReachable : Backend → Bool
  | memory _ _ => true
  | database db => db.isReachable

/-- No fault is planted in the backend. -/
def IsFaultless : Backend → Prop
  | memory _ _ => True
  | database db => db.IsFaultless

/-- What requests on a table find of a backend. -/
def part (ref : TableRef) (backend : Backend) : Bool × TableContent :=
  (backend.isReachable, backend.content ref)

theorem kindName_eq_of_content_eq {backend other : Backend}
    (h : backend.content ref = other.content ref) : backend.kindName = other.kindName := by
  cases backend with
  | memory =>
    cases other with
    | memory => rfl
    | database => cases h
  | database =>
    cases other with
    | memory => cases h
    | database => rfl

/-- Act on the stores, or on the database. -/
def act (onStores : Store × Store → Except SyncError α × (Store × Store))
    (onDatabase : Database.Session α) : Backend → Except CallError α × Backend
  | memory syncStore localStore =>
    let (outcome, stores) := onStores (syncStore, localStore)
    (outcome.mapError .refused, memory stores.1 stores.2)
  | database db =>
    let (outcome, db) := onDatabase db
    (outcome, database db)

/-- What is confined to a table over the stores and over a database is so over any backend. -/
theorem confined_act {onStores : Store × Store → Except SyncError α × (Store × Store)}
    {onDatabase : Database.Session α}
    (hstores : ConfinedTo (fun _ => True) keptOf ref onStores)
    (hdb : Database.Confined ref onDatabase) :
    ConfinedTo IsFaultless part ref (act onStores onDatabase) := by
  refine ⟨fun {backend other} h h' hpart => ?_, fun {backend other} h hother => ?_,
    fun {backend} h => ?_⟩
  · -- Contents tell stores from a database, so that both backends are of one kind.
    obtain ⟨hreach, hcontent⟩ := Prod.mk.inj hpart
    cases backend with
    | memory =>
      cases other with
      | memory =>
        obtain ⟨hresult, hafter⟩ := hstores.alike trivial trivial (TableContent.stored.inj hcontent)
        exact ⟨congrArg (Except.mapError CallError.refused) hresult,
          congrArg (fun table => (true, TableContent.stored table)) hafter⟩
      | database => cases hcontent
    | database db =>
      cases other with
      | memory => cases hcontent
      | database other =>
        obtain ⟨hresult, hafter⟩ :=
          hdb.alike h h' (Prod.ext hreach (TableContent.rows.inj hcontent))
        exact ⟨hresult, congrArg (fun part => (part.1, TableContent.rows part.2)) hafter⟩
  · cases backend with
    | memory =>
      exact congrArg (fun table => (true, TableContent.stored table))
        (hstores.others trivial hother)
    | database db =>
      exact congrArg (fun part => (part.1, TableContent.rows part.2)) (hdb.others h hother)
  · cases backend with
    | memory => trivial
    | database db => exact hdb.sound h

/-- What is confined to a scope of a store is confined to its sync table. -/
theorem confined_onSync {action : Store → Except SyncError α × Store}
    (h : Store.Confined scope action) :
    ConfinedTo (fun _ => True) keptOf (.sync scope)
      fun stores => ((action stores.1).1, (action stores.1).2, stores.2) := by
  refine ⟨fun _ _ hkept => h.alike trivial trivial hkept, fun {stores other} _ hother => ?_, id⟩
  cases other with
  | sync other => exact h.others trivial fun heq => hother (congrArg TableRef.sync heq)
  | onLocal other => rfl

/-- What is confined to a scope of a store is confined to its local table. -/
theorem confined_onLocal {action : Store → Except SyncError α × Store}
    (h : Store.Confined scope action) :
    ConfinedTo (fun _ => True) keptOf (.onLocal scope)
      fun stores => ((action stores.2).1, stores.1, (action stores.2).2) := by
  refine ⟨fun _ _ hkept => h.alike trivial trivial hkept, fun {stores other} _ hother => ?_, id⟩
  cases other with
  | sync other => rfl
  | onLocal other => exact h.others trivial fun heq => hother (congrArg TableRef.onLocal heq)

/-- Every call on a sync table is confined to it, over both backends. -/
theorem confined_performSync (limits : Limits) (scope : Scope) (now : Timestamp)
    (call : SyncCall) :
    ConfinedTo IsFaultless part (.sync scope)
      fun backend => backend.performSync limits scope now call := by
  have hact := confined_act (confined_onSync (Store.confined_performSync limits scope now call))
    (Database.confined_performSync limits scope now call)
  convert hact using 2 with backend
  cases backend <;> rfl

/-- Every call on a local table is confined to it, over both backends. -/
theorem confined_performLocal (scope : Scope) (now : Timestamp) (call : LocalCall) :
    ConfinedTo IsFaultless part (.onLocal scope)
      fun backend => backend.performLocal scope now call := by
  have hact := confined_act (confined_onLocal (Store.confined_performLocal scope now call))
    (Database.confined_performLocal scope call)
  convert hact using 2 with backend
  cases backend <;> rfl

end Backend

/-! ## Requests -/

/-- Whether the request may concern a table: it is on this table, or on none at all. -/
def Http.Request.mayConcern (ref : TableRef) (request : Http.Request) : Bool :=
  request.table?.all (· = ref)

namespace Service

open Http

variable {ref : TableRef} {request : Request} {α : Type}

/-- No fault is planted in the backend. -/
def IsFaultless (service : Service) : Prop := service.backend.IsFaultless

/-- What requests on a table find of the service. -/
def part (ref : TableRef) (service : Service) : Limits × Bool × TableContent :=
  (service.limits, service.backend.part ref)

/-- Telling the outcome of what is confined over the backend is confined. -/
theorem confined_telling {action : Limits → Backend → Except CallError α × Backend}
    (h : ∀ limits, ConfinedTo Backend.IsFaultless Backend.part ref (action limits))
    (tell : Except CallError α → Answer) :
    ConfinedTo IsFaultless part ref fun service =>
      (tell (action service.limits service.backend).1,
        service.withBackend (action service.limits service.backend).2) := by
  refine ⟨fun {service other} hservice hother hpart => ?_,
    fun {service _} hservice hne => Prod.ext rfl ((h service.limits).others hservice hne),
    fun {service} hservice => (h service.limits).sound hservice⟩
  -- The limits decide what is refused, so the services need to have the same.
  obtain ⟨hlimits, hbackend⟩ := Prod.mk.inj hpart
  obtain ⟨hresult, hafter⟩ := (h service.limits).alike hservice hother hbackend
  rw [← hlimits]
  exact ⟨congrArg tell hresult, Prod.ext hlimits hafter⟩

/-- An action is confined to the table that it is a call on. -/
theorem confined_perform (now : Timestamp) (action : Action)
    (h : ∀ about ∈ action.table?, about = ref) :
    ConfinedTo IsFaultless part ref fun service => service.perform now action := by
  cases action with
  | greet => exact confinedTo_of_reads (fun _ => rfl) fun _ _ _ => rfl
  | report =>
    -- The name of the backend is told, which is the same for every table.
    refine confinedTo_of_reads (fun _ => rfl) fun service other hpart => ?_
    have hcontent : service.backend.content ref = other.backend.content ref :=
      congrArg (fun part => part.2.2) hpart
    simp only [Service.perform, Service.state, Backend.kindName_eq_of_content_eq hcontent]
  | sync scope call =>
    obtain rfl : .sync scope = ref := h _ rfl
    exact confined_telling (fun limits => Backend.confined_performSync limits scope now call)
      fun outcome => answerCall call.status (outcome.map SyncReply.content)
  | onLocal scope call =>
    obtain rfl : .onLocal scope = ref := h _ rfl
    exact confined_telling (fun _ => Backend.confined_performLocal scope now call)
      fun outcome => answerCall call.status (outcome.map LocalReply.content)

/-- A request is confined to the table that it is on, as far as it is read with a method. -/
theorem confined_answerAs (method : Method) (now : Timestamp)
    (h : ∀ about ∈ request.table?, about = ref) :
    ConfinedTo IsFaultless part ref fun service => service.answerAs method now request := by
  simp only [Service.answerAs]
  cases hresource : Resource.ofTarget? request.target with
  | none => exact confinedTo_of_reads (fun _ => rfl) fun _ _ _ => rfl
  | some resource =>
    dsimp only
    cases haction : request.action? method resource with
    | none => exact confinedTo_of_reads (fun _ => rfl) fun _ _ _ => rfl
    | some reading =>
      cases reading with
      | error failure => exact confinedTo_of_reads (fun _ => rfl) fun _ _ _ => rfl
      | ok action =>
        -- What was read is a call on the table that the path names.
        refine confined_perform now action fun about habout => h about ?_
        have htable : action.table? = resource.table? :=
          Request.asksOf_action? haction action rfl
        rwa [Request.table?, hresource, Option.bind_some, ← htable]

/-- A request is confined to the table that it is on; one that is on none is confined to any. -/
theorem confined_answer (now : Timestamp) (h : ∀ about ∈ request.table?, about = ref) :
    ConfinedTo IsFaultless part ref fun service => service.answer now request := by
  have hread (method : Method) := confined_answerAs method now h
  simp only [Service.answer]
  cases request.method with
  | options => exact confinedTo_of_reads (fun _ => rfl) fun _ _ _ => rfl
  | head => exact (hread .get).map Answer.withoutContent
  | get => exact hread .get
  | post => exact hread .post
  | delete => exact hread .delete
  | other => exact hread .other

/-! ## Runs -/

theorem answerAll_eq_runAll (service : Service) (requests : List (Timestamp × Request)) :
    service.answerAll requests =
      runAll (fun service entry => service.answer entry.1 entry.2) service requests := by
  induction requests generalizing service with
  | nil => rfl
  | cons entry rest ih =>
    rw [runAll_cons, ← ih]
    rfl

/-- Of any run of requests those that are on other tables than a given one, be these of another
scope or of the other kind, can be left out: all other requests are answered as before, each at the
time that comes with it, and the content of the table is the same in the end. -/
theorem tables_isolated (service : Service) (h : service.IsFaultless) (ref : TableRef)
    (requests : List (Timestamp × Request)) :
    let kept := requests.filter fun entry => entry.2.mayConcern ref
    outputsOf (fun entry => entry.2.mayConcern ref) requests (service.answerAll requests).1 =
        (service.answerAll kept).1 ∧
      (service.answerAll requests).2.backend.content ref =
        (service.answerAll kept).2.backend.content ref := by
  intro kept
  have hkept (entry : Timestamp × Request) (hentry : entry.2.mayConcern ref) :
      ConfinedTo IsFaultless part ref fun service => service.answer entry.1 entry.2 := by
    refine confined_answer entry.1 fun about habout => ?_
    rw [Request.mayConcern, habout] at hentry
    exact of_decide_eq_true hentry
  have hleft (entry : Timestamp × Request) (hentry : entry.2.mayConcern ref = false) :
      ∃ other, other ≠ ref ∧
        ConfinedTo IsFaultless part other fun service => service.answer entry.1 entry.2 := by
    -- A request that is left out is on some other table, to which it is confined.
    rw [Request.mayConcern] at hentry
    cases htable : entry.2.table? with
    | none =>
      rw [htable] at hentry
      cases hentry
    | some other =>
      rw [htable] at hentry
      refine ⟨other, of_decide_eq_false hentry, confined_answer entry.1 fun about habout => ?_⟩
      exact Option.some.inj (habout.symm.trans htable)
  obtain ⟨hanswers, hpart⟩ := runAll_filter_of_confined hkept hleft h h rfl requests
  simp only [answerAll_eq_runAll]
  exact ⟨hanswers, congrArg (fun part => part.2.2) hpart⟩

/-- A write of a text to the sync table of another user. -/
def otherUserPut : Request :=
  ⟨.post, "/synctable/notes/u2", some "application/json",
    "\x7b\"uniqueId\":\"a\",\"text\":\"y\"\x7d"⟩

/-- A write of a text to the local table of the same names. -/
def localPut : Request :=
  ⟨.post, "/localtable/notes/u1", some "application/json",
    "\x7b\"uniqueId\":\"a\",\"text\":\"z\"\x7d"⟩

/-- Writes to a sync table, to a local table of the same names and to the table of another user, a
look at the first one, and a look at the service. -/
def mixedRun : List (Timestamp × Request) :=
  [(1000, textPut), (2000, otherUserPut), (2010, localPut), (1005, rowGet),
    (1006, ⟨.get, "/health", none, ""⟩)]

/-- Over both backends all requests succeed, and the writes to the two other tables make no
difference to the rest. -/
theorem tables_isolated_sample :
    let alone := [(1000, textPut), (1005, rowGet), (1006, ⟨.get, "/health", none, ""⟩)]
    (mixedRun.filter fun entry => entry.2.mayConcern (.sync ⟨"notes", "u1"⟩)) = alone ∧
    ((overMemory {}).answerAll mixedRun).1.map Answer.status = [201, 201, 201, 200, 200] ∧
    outputsOf (fun entry => entry.2.mayConcern (.sync ⟨"notes", "u1"⟩)) mixedRun
        ((overMemory {}).answerAll mixedRun).1 = ((overMemory {}).answerAll alone).1 ∧
    ((overDatabase {}).answerAll mixedRun).1.map Answer.status = [201, 201, 201, 200, 200] ∧
    outputsOf (fun entry => entry.2.mayConcern (.sync ⟨"notes", "u1"⟩)) mixedRun
        ((overDatabase {}).answerAll mixedRun).1 = ((overDatabase {}).answerAll alone).1 := by
  intro alone
  have hkept : (mixedRun.filter fun entry => entry.2.mayConcern (.sync ⟨"notes", "u1"⟩)) =
      alone := by decide +kernel
  have hmemory :=
    (tables_isolated (overMemory {}) trivial (.sync ⟨"notes", "u1"⟩) mixedRun).1
  have hdatabase :=
    (tables_isolated (overDatabase {}) rfl (.sync ⟨"notes", "u1"⟩) mixedRun).1
  rw [hkept] at hmemory hdatabase
  exact ⟨hkept, by decide +kernel, hmemory, by decide +kernel, hdatabase⟩

end Service

end RowSync
