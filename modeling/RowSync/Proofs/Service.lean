import RowSync.Proofs.Backends
import RowSync.Proofs.Http.Action
import RowSync.Service

/-!
# The Service over Alike Backends

Requests on sync tables are answered alike over alike backends (`Service.Alike.answerAll`), from the
status to the last member of the content and whether they succeed or fail, as long as the database
keeps what they name and write. A write that is not kept is answered otherwise than over a store, or
its row is (`answers_put_get_agree_iff`).
-/

namespace RowSync

namespace Http

theorem Failure.isFailure_answer (failure : Failure) : failure.answer.isFailure := by
  have hstatus : 400 ≤ failure.status := by
    unfold Failure.status
    split
    · decide
    · split <;> decide
    · decide
    · decide
  exact decide_eq_true hstatus

end Http

/-- Rows that are written alike are the same. -/
theorem Row.toJson_inj {row other : Row} (h : row.toJson = other.toJson) : row = other := by
  obtain ⟨id, payload, modifiedAt, deleted⟩ := row
  obtain ⟨id', payload', modifiedAt', deleted'⟩ := other
  simp only [Row.toJson, Timestamp.toJson, Json.ofNat, Payload.toJson, Json.obj.injEq,
    List.cons.injEq, Prod.mk.injEq, Json.str.injEq, Json.num.injEq, Json.Number.int.injEq,
    Json.bool.injEq, Int.natCast_inj, UInt64.toNat_inj, true_and, and_true] at h
  obtain ⟨rfl, hpayload, rfl, rfl⟩ := h
  rw [Payload.ext hpayload]

/-- Only the reply with a row has the content of the row. -/
theorem SyncReply.eq_row_of_content {reply : SyncReply} {row : Row}
    (h : reply.content = .json row.toJson) : reply = .row row := by
  -- Only the JSON object of a row has the members of a row.
  cases reply with
  | row other => rw [Row.toJson_inj (Http.Content.json.inj h)]
  | rows => cases Http.Content.json.inj h
  | report => simp [content, SyncReport.toJson, Row.toJson] at h
  | outcome => simp [content, EditOutcome.toJson, Row.toJson] at h

namespace Service

open Http

variable {service other : Service} {request : Request} {method : Method}

/-- Answer requests one after the other, each at the time that comes with it. -/
def answerAll (service : Service) : List (Timestamp × Request) → List Answer × Service
  | [] => ([], service)
  | (now, request) :: rest =>
    let (answer, service) := service.answer now request
    let (answers, service) := service.answerAll rest
    (answer :: answers, service)

/-- The services have alike backends and the same limits. -/
structure Alike (service other : Service) : Prop where
  /-- The backends are alike. -/
  backend : service.backend.Alike other.backend
  /-- The limits are the same. -/
  limits : service.limits = other.limits

/-- Services over alike backends do a call alike. -/
theorem Alike.perform (h : Alike service other) (now : Timestamp) {scope : Scope} {call : SyncCall}
    (hscope : scope.IsKept) (hkept : call.IsKept) (hrange : call.InRange) :
    (service.perform now (.sync scope call)).1 = (other.perform now (.sync scope call)).1 ∧
      Alike (service.perform now (.sync scope call)).2
        (other.perform now (.sync scope call)).2 := by
  obtain ⟨hresult, hafter⟩ := h.backend.perform service.limits now hscope hkept hrange
  have hlimits : other.limits = service.limits := h.limits.symm
  constructor
  · simp only [Service.perform, hlimits, hresult]
  · refine ⟨?_, h.limits⟩
    simp only [Service.perform, hlimits]
    exact hafter

/-- Services over alike backends answer a request on a sync table alike, as far as it is read with a
method. -/
theorem Alike.answerAs (h : Alike service other) (now : Timestamp) (hsync : request.OnSyncTable)
    (hkept : ∀ resource scope call, Resource.ofTarget? request.target = some resource →
      request.action? method resource = some (.ok (.sync scope call)) →
      scope.IsKept ∧ call.IsKept) :
    (service.answerAs method now request).1 = (other.answerAs method now request).1 ∧
      Alike (service.answerAs method now request).2 (other.answerAs method now request).2 := by
  -- A request that is not read, or not understood, does not reach the backend.
  simp only [Service.answerAs]
  cases hresource : Resource.ofTarget? request.target with
  | none => exact ⟨rfl, h⟩
  | some resource =>
    dsimp only
    cases haction : request.action? method resource with
    | none => exact ⟨rfl, h⟩
    | some reading =>
      have hasks := Request.asksSync_action? (hsync resource hresource) haction
      cases reading with
      | error failure => exact ⟨rfl, h⟩
      | ok action =>
        obtain ⟨scope, call, rfl, hrange⟩ := hasks action rfl
        obtain ⟨hscope, hcall⟩ := hkept resource scope call hresource haction
        exact h.perform now hscope hcall hrange

/-- Services over alike backends answer a request on a sync table alike. -/
theorem Alike.answer (h : Alike service other) (now : Timestamp) (hsync : request.OnSyncTable)
    (hkept : request.IsKept) :
    (service.answer now request).1 = (other.answer now request).1 ∧
      Alike (service.answer now request).2 (other.answer now request).2 := by
  have hcall (resource : Resource) (scope : Scope) (call : SyncCall)
      (hresource : Resource.ofTarget? request.target = some resource)
      (haction : request.action? request.readMethod resource = some (.ok (.sync scope call))) :
      scope.IsKept ∧ call.IsKept := by
    refine hkept (scope, call) ?_
    rw [Option.mem_def, Request.syncCall?, hresource, Option.bind_some, haction]
  have hread := h.answerAs now hsync hcall
  -- The request is answered as if it were made with the method by which it is read.
  rw [Service.answer, Service.answer]
  cases hmethod : request.method with
  | options => exact ⟨rfl, h⟩
  | head =>
    have hget : request.readMethod = .get := by rw [Request.readMethod, hmethod]
    rw [hget] at hread
    exact ⟨congrArg Answer.withoutContent hread.1, hread.2⟩
  | get | post | delete | other =>
    have hsame : request.readMethod = request.method := by rw [Request.readMethod, hmethod]
    rw [hsame, hmethod] at hread
    exact hread

/-- Services over alike backends answer requests on sync tables alike, however many. -/
theorem Alike.answerAll (h : Alike service other) {requests : List (Timestamp × Request)}
    (hsync : ∀ entry ∈ requests, entry.2.OnSyncTable) (hkept : ∀ entry ∈ requests, entry.2.IsKept) :
    (service.answerAll requests).1 = (other.answerAll requests).1 ∧
      Alike (service.answerAll requests).2 (other.answerAll requests).2 := by
  -- The backends are alike after each request, and so before the next one.
  induction requests generalizing service other with
  | nil => exact ⟨rfl, h⟩
  | cons entry rest ih =>
    obtain ⟨now, request⟩ := entry
    obtain ⟨hanswer, hafter⟩ :=
      h.answer now (hsync (now, request) (by simp)) (hkept (now, request) (by simp))
    obtain ⟨hanswers, hlast⟩ := ih hafter (fun entry hentry => hsync entry (by simp [hentry]))
      fun entry hentry => hkept entry (by simp [hentry])
    refine ⟨?_, hlast⟩
    rw [Service.answerAll, Service.answerAll]
    exact congrArg₂ List.cons hanswer hanswers

/-! ## Contents that are not kept -/

section Kept

variable {scope : Scope} {call : SyncCall} {id : RowId} {payload : Payload} {put get : Request}
  {status : Nat} {row : Row}

/-- A request that makes a call on a sync table, and is not just for the head, is answered by doing
the call. -/
theorem answer_eq_perform (service : Service) (now : Timestamp)
    (h : request.syncCall? = some (scope, call)) (hmethod : request.method ≠ .head) :
    service.answer now request = service.perform now (.sync scope call) := by
  obtain ⟨resource, hresource, haction⟩ := Request.exists_action?_of_syncCall? h
  have hread : service.answerAs request.readMethod now request =
      service.perform now (.sync scope call) := by
    simp only [Service.answerAs, hresource, haction]
  rw [← hread, Service.answer, Request.readMethod]
  rw [Request.readMethod] at haction
  cases hcase : request.method with
  | head => exact absurd hcase hmethod
  | options =>
    rw [hcase, Request.action?_options] at haction
    cases haction
  | get | post | delete | other => rfl

/-- An answer that tells a row tells that the call gave that row. -/
theorem eq_row_of_answerCall (hstatus : status < 400) {outcome : Except CallError SyncReply}
    (h : answerCall status (outcome.map SyncReply.content) =
      answerCall status (.ok (SyncReply.row row).content)) : outcome = .ok (.row row) := by
  cases outcome with
  | error e =>
    -- A failure has another status.
    have hfailure := (Failure.ofCallError e).isFailure_answer
    have hanswer : (Failure.ofCallError e).answer = ⟨status, (SyncReply.row row).content⟩ := h
    rw [hanswer, Answer.isFailure, decide_eq_true_iff] at hfailure
    exact absurd hfailure (Nat.not_le.2 hstatus)
  | ok reply => rw [SyncReply.eq_row_of_content (congrArg Answer.content h)]

/-- The service over stores without rows. -/
def overMemory (limits : Limits) : Service := ⟨.memory ∅ ∅, limits⟩

/-- The service over a database without rows. -/
def overDatabase (limits : Limits) : Service := ⟨.database ∅, limits⟩

/-- A write and a look at the row are answered as the calls are done, one after the other. -/
theorem answerAll_put_get (backend : Backend) (limits : Limits) (now later : Timestamp)
    (hput : put.syncCall? = some (scope, .put id payload)) (hputMethod : put.method ≠ .head)
    (hget : get.syncCall? = some (scope, .row id)) (hgetMethod : get.method ≠ .head) :
    ((Service.mk backend limits).answerAll [(now, put), (later, get)]).1 =
      [answerCall 201 ((backend.performSync limits scope now (.put id payload)).1.map
        SyncReply.content),
      answerCall 200 (((backend.performSync limits scope now (.put id payload)).2.performSync limits
        scope later (.row id)).1.map SyncReply.content)] := by
  simp only [Service.answerAll, answer_eq_perform _ _ hput hputMethod,
    answer_eq_perform _ _ hget hgetMethod]
  rfl

/-- Services without rows answer a write and a look at the row alike just if the database keeps what
the write names and writes. -/
theorem answers_put_get_agree_iff (limits : Limits) (now later : Timestamp)
    (hput : put.syncCall? = some (scope, .put id payload)) (hputMethod : put.method ≠ .head)
    (hget : get.syncCall? = some (scope, .row id)) (hgetMethod : get.method ≠ .head)
    (hvalid : checkRowId id = .ok ()) :
    ((overMemory limits).answerAll [(now, put), (later, get)]).1 =
      ((overDatabase limits).answerAll [(now, put), (later, get)]).1 ↔ put.IsKept := by
  have hkept : put.IsKept ↔ scope.IsKept ∧ (SyncCall.put id payload).IsKept := by
    simp [Request.IsKept, hput]
  rw [hkept, overMemory, overDatabase, answerAll_put_get _ _ _ _ hput hputMethod hget hgetMethod,
    answerAll_put_get _ _ _ _ hput hputMethod hget hgetMethod,
    ← Backend.put_agrees_iff hvalid limits scope now later payload]
  -- Over stores both answers tell the row, and so do those over the database if they are the same.
  obtain ⟨store, hmemory, hfound⟩ := Backend.memory_put hvalid limits scope now later payload
  rw [hmemory, hfound]
  constructor
  · intro h
    obtain ⟨hfirst, hrest⟩ := List.cons.inj h
    have hsecond := (List.cons.inj hrest).1
    exact ⟨(eq_row_of_answerCall (by decide) hfirst.symm).symm,
      (eq_row_of_answerCall (by decide) hsecond.symm).symm⟩
  · rintro ⟨hfirst, hsecond⟩
    rw [← hfirst, ← hsecond]

end Kept

/-! ## Both backends -/

/-- Whatever is asked of sync tables, the service answers alike over stores and over a database,
both without rows at first, as long as the database keeps what the requests name and write; and then
the rows, the snapshot and the changes after any baseline in range are the same, as is the outcome
of any other call. A write and a look at its row are answered alike only if the database keeps what
the write names and writes. -/
theorem backends_agree (limits : Limits) :
    (∀ requests : List (Timestamp × Request), (∀ entry ∈ requests, entry.2.OnSyncTable) →
      (∀ entry ∈ requests, entry.2.IsKept) →
      ((overMemory limits).answerAll requests).1 = ((overDatabase limits).answerAll requests).1 ∧
      ∀ (scope : Scope) (later : Timestamp) (call : SyncCall),
        scope.IsKept → call.IsKept → call.InRange →
        (((overMemory limits).answerAll requests).2.backend.performSync limits scope later call).1 =
          (((overDatabase limits).answerAll requests).2.backend.performSync limits scope later
            call).1) ∧
    ∀ (put get : Request) (scope : Scope) (id : RowId) (payload : Payload) (now later : Timestamp),
      put.syncCall? = some (scope, .put id payload) → put.method ≠ .head →
      get.syncCall? = some (scope, .row id) → get.method ≠ .head → checkRowId id = .ok () →
      (((overMemory limits).answerAll [(now, put), (later, get)]).1 =
        ((overDatabase limits).answerAll [(now, put), (later, get)]).1 ↔ put.IsKept) := by
  have hempty : Alike (overMemory limits) (overDatabase limits) := ⟨Backend.alike_empty, rfl⟩
  constructor
  · intro requests hsync hkept
    obtain ⟨hanswers, hafter⟩ := hempty.answerAll hsync hkept
    refine ⟨hanswers, fun scope later call hscope hcall hrange => ?_⟩
    exact (hafter.backend.perform limits later hscope hcall hrange).1
  · intro put get scope id payload now later hput hputMethod hget hgetMethod hvalid
    exact answers_put_get_agree_iff limits now later hput hputMethod hget hgetMethod hvalid

/-- A write of a text. -/
def textPut : Request :=
  ⟨.post, "/synctable/notes/u1", some "application/json",
    "\x7b\"uniqueId\":\"a\",\"text\":\"x\"\x7d"⟩

/-- A write of a double that does not read back from its shortest text. -/
def doublePut : Request :=
  ⟨.post, "/synctable/notes/u1", some "application/json",
    "\x7b\"uniqueId\":\"a\",\"mass\":9.109e-31\x7d"⟩

/-- A look at the row. -/
def rowGet : Request := ⟨.get, "/synctable/notes/u1/a", none, ""⟩

/-- The text that is written is the same over both backends, the double is not. -/
theorem backends_agree_sample :
    ((overMemory {}).answerAll [(1000, textPut), (1005, rowGet)]).1 =
      ((overDatabase {}).answerAll [(1000, textPut), (1005, rowGet)]).1 ∧
    (((overMemory {}).answerAll [(1000, doublePut), (1005, rowGet)]).1 =
      ((overDatabase {}).answerAll [(1000, doublePut), (1005, rowGet)]).1 ↔ doublePut.IsKept) :=
  ⟨((backends_agree {}).1 [(1000, textPut), (1005, rowGet)] (by decide +kernel)
      (by decide +kernel)).1,
    (backends_agree {}).2 doublePut rowGet ⟨"notes", "u1"⟩ "a"
      ⟨[("mass", .num (.double ⟨false, 4157519176128740748⟩))], rfl⟩ 1000 1005 (by decide +kernel)
      (by decide) (by decide +kernel) (by decide) (by decide)⟩

/-- The double that is written is told back by one backend and not by the other. -/
theorem double_told_apart :
    ((overMemory {}).answerAll [(1000, doublePut), (1005, rowGet)]).1 ≠
      ((overDatabase {}).answerAll [(1000, doublePut), (1005, rowGet)]).1 := by
  decide +kernel

end Service

end RowSync
