import RowSync.Proofs.Database.Script
import RowSync.Proofs.Service
import RowSync.Proofs.StoreScopes

/-!
# Failures Leave No Trace

A call that fails leaves everything as it was, over stores and over a database alike, and so does a
request that is answered with a status that tells a failure (`failures_leave_no_trace`): the rows,
the clocks and the scopes that are kept are those of before, at whatever point of a batch the
failure came.
-/

namespace RowSync

theorem exists_eq_error_of_mapError {ε ε' α : Type} {outcome : Except ε α} {f : ε → ε'} {e : ε'}
    (h : outcome.mapError f = .error e) : ∃ cause, outcome = .error cause := by
  cases outcome with
  | ok value => cases h
  | error cause => exact ⟨cause, rfl⟩

theorem SyncCall.status_lt (call : SyncCall) : call.status < 400 := by
  unfold SyncCall.status
  split <;> decide

theorem LocalCall.status_lt (call : LocalCall) : call.status < 400 := by
  unfold LocalCall.status
  split <;> decide

namespace Backend

variable {backend : Backend} {limits : Limits} {scope : Scope} {now : Timestamp} {α : Type}

/-- What a backend keeps: its two stores, or the tables of its database. -/
def contents : Backend → (Store × Store) ⊕ Database.Tables
  | memory syncStore localStore => .inl (syncStore, localStore)
  | database db => .inr db.tables

/-- The stores of the backend, if it has any, keep tables with rows only. -/
def Populated : Backend → Prop
  | memory syncStore localStore => syncStore.Populated ∧ localStore.Populated
  | database _ => True

/-- The call leaves tables with rows only, and if it fails it leaves what the backend kept. -/
structure AllOrNothing (backend : Backend) (outcome : Except CallError α × Backend) : Prop where
  /-- Every table in a store has rows. -/
  populated : outcome.2.Populated
  /-- A failure leaves what the backend kept. -/
  restored : ∀ e, outcome.1 = .error e → outcome.2.contents = backend.contents

theorem Populated.allOrNothing_performSync (h : backend.Populated) (limits : Limits) (scope : Scope)
    (now : Timestamp) (call : SyncCall) :
    backend.AllOrNothing (backend.performSync limits scope now call) := by
  cases backend with
  | memory syncStore localStore =>
    have hcall := SyncTables.allOrNothing_perform h.1 limits scope now call
    refine ⟨⟨hcall.populated, h.2⟩, fun e he => ?_⟩
    -- The error tells the one of the store, which is as before.
    obtain ⟨cause, hcause⟩ := exists_eq_error_of_mapError he
    simp only [performSync, contents, hcall.restored cause hcause]
  | database db =>
    refine ⟨trivial, fun e he => ?_⟩
    exact congrArg Sum.inr (Database.allOrNothing_performSync limits scope now call db e he)

theorem Populated.allOrNothing_performLocal (h : backend.Populated) (scope : Scope)
    (now : Timestamp) (call : LocalCall) :
    backend.AllOrNothing (backend.performLocal scope now call) := by
  cases backend with
  | memory syncStore localStore =>
    have hcall := LocalTables.allOrNothing_perform h.2 scope now call
    refine ⟨⟨h.1, hcall.populated⟩, fun e he => ?_⟩
    obtain ⟨cause, hcause⟩ := exists_eq_error_of_mapError he
    simp only [performLocal, contents, hcall.restored cause hcause]
  | database db =>
    refine ⟨trivial, fun e he => ?_⟩
    exact congrArg Sum.inr (Database.allOrNothing_performLocal scope call db e he)

end Backend

namespace Service

open Http

variable {service : Service} {request : Request} {method : Method} {now : Timestamp}

/-- The answer leaves tables with rows only, and if it tells a failure it leaves what was kept. -/
structure AllOrNothing (service : Service) (outcome : Answer × Service) : Prop where
  /-- Every table in a store has rows. -/
  populated : outcome.2.backend.Populated
  /-- A failure leaves what the backend kept. -/
  restored : outcome.1.isFailure → outcome.2.backend.contents = service.backend.contents

/-- An answer that leaves the service as it is, whatever it tells. -/
theorem allOrNothing_self (h : service.backend.Populated) (answer : Answer) :
    service.AllOrNothing (answer, service) :=
  ⟨h, fun _ => rfl⟩

/-- The answer to a call tells a failure only if the call fails. -/
theorem exists_eq_error_of_answerCall {status : Nat} (hstatus : status < 400)
    {outcome : Except CallError Content} (h : (answerCall status outcome).isFailure) :
    ∃ e, outcome = .error e := by
  cases outcome with
  | error e => exact ⟨e, rfl⟩
  | ok content =>
    have hle : 400 ≤ status := of_decide_eq_true h
    exact absurd hstatus (Nat.not_lt.2 hle)

/-- Doing what a request asks for is all or nothing. -/
theorem allOrNothing_perform (h : service.backend.Populated) (now : Timestamp) (action : Action) :
    service.AllOrNothing (service.perform now action) := by
  cases action with
  | greet | report => exact allOrNothing_self h _
  | sync scope call =>
    have hcall := h.allOrNothing_performSync service.limits scope now call
    refine ⟨hcall.populated, fun hfailure => ?_⟩
    obtain ⟨e, he⟩ := exists_eq_error_of_answerCall call.status_lt hfailure
    exact hcall.restored e (map_eq_error_iff.1 he)
  | onLocal scope call =>
    have hcall := h.allOrNothing_performLocal scope now call
    refine ⟨hcall.populated, fun hfailure => ?_⟩
    obtain ⟨e, he⟩ := exists_eq_error_of_answerCall call.status_lt hfailure
    exact hcall.restored e (map_eq_error_iff.1 he)

theorem allOrNothing_answerAs (h : service.backend.Populated) (method : Method) (now : Timestamp)
    (request : Request) : service.AllOrNothing (service.answerAs method now request) := by
  -- A request that cannot be read does not reach the backend.
  rw [answerAs]
  split
  · exact allOrNothing_self h _
  · split
    · exact allOrNothing_self h _
    · exact allOrNothing_self h _
    · exact allOrNothing_perform h now _

/-- Answering a request is all or nothing. -/
theorem allOrNothing_answer (h : service.backend.Populated) (now : Timestamp) (request : Request) :
    service.AllOrNothing (service.answer now request) := by
  rw [answer]
  split
  · exact allOrNothing_self h _
  · -- The status stays when the content is left out.
    have hwhole := allOrNothing_answerAs h .get now request
    exact ⟨hwhole.populated, hwhole.restored⟩
  · exact allOrNothing_answerAs h _ now request

/-- The services that are reached by answering requests, from stores without rows or from any
database. -/
inductive Reachable : Service → Prop
  | memory (limits : Limits) : Reachable ⟨.memory ∅ ∅, limits⟩
  | database (db : Database) (limits : Limits) : Reachable ⟨.database db, limits⟩
  | answer {service : Service} (now : Timestamp) (request : Request)
    (hreach : Reachable service) : Reachable (service.answer now request).2

theorem Reachable.populated (h : Reachable service) : service.backend.Populated := by
  induction h with
  | memory limits => exact ⟨Store.populated_empty, Store.populated_empty⟩
  | database db limits => trivial
  | answer now request _ ih => exact (allOrNothing_answer ih now request).populated

/-- Whatever fails leaves no trace: calls on sync tables and on local tables of stores that are
reached by such calls, transactions on a reachable store whatever is done in them, calls on any
database, and requests that are answered with the status of a failure. -/
theorem failures_leave_no_trace (limits : Limits) :
    (∀ store, SyncTables.Reachable limits store → ∀ scope now call e,
      (SyncTables.perform limits store scope now call).1 = .error e →
      (SyncTables.perform limits store scope now call).2 = store) ∧
    (∀ store, LocalTables.Reachable store → ∀ scope now call e,
      (LocalTables.perform store scope now call).1 = .error e →
      (LocalTables.perform store scope now call).2 = store) ∧
    (∀ store, Store.Reachable store → ∀ (ε α : Type) (scope : Scope) (now : Timestamp)
      (body : Transaction → Except ε (α × Transaction)) (e : ε),
      (store.transact scope now body).1 = .error e → (store.transact scope now body).2 = store) ∧
    (∀ (db : Database) scope now call e,
      (Database.performSync limits scope now call db).1 = .error e →
      (Database.performSync limits scope now call db).2.tables = db.tables) ∧
    (∀ (db : Database) scope call e,
      (Database.performLocal scope call db).1 = .error e →
      (Database.performLocal scope call db).2.tables = db.tables) ∧
    ∀ service, Reachable service → ∀ now request, 400 ≤ (service.answer now request).1.status →
      (service.answer now request).2.backend.contents = service.backend.contents := by
  refine ⟨?_, ?_, ?_, ?_, ?_, ?_⟩
  · intro store hreach scope now call e he
    have hpopulated : store.Populated := SyncTables.RunsTo.populated hreach Store.populated_empty
    exact (SyncTables.allOrNothing_perform hpopulated limits scope now call).restored e he
  · intro store hreach scope now call e he
    exact (LocalTables.allOrNothing_perform hreach.populated scope now call).restored e he
  · intro store hreach ε α scope now body e he
    exact (hreach.populated.allOrNothing_transact scope now body).restored e he
  · intro db scope now call e he
    exact Database.allOrNothing_performSync limits scope now call db e he
  · intro db scope call e he
    exact Database.allOrNothing_performLocal scope call db e he
  · intro service hreach now request hstatus
    have hanswer := allOrNothing_answer hreach.populated now request
    exact hanswer.restored (decide_eq_true hstatus)

/-- A batch that fails at its last mutation, after it wrote a row twice. -/
def failingBatch : List Mutation :=
  [.upsert "a" (SyncTables.sampleNote "edited"), .delete "a", .delete "z"]

/-- A request that asks for the failing batch. -/
def failingPush : Request :=
  ⟨.post, "/synctable/changes/notes/ann", some "application/json",
    "[[\"upsert\",\"a\",\x7b\x7d],[\"delete\",\"a\"],[\"delete\",\"z\"]]"⟩

/-- The failing batch leaves no trace in a store and in a database, nor does a local row that is not
there, nor the request, which is answered with 404. -/
theorem failures_leave_no_trace_sample :
    ((SyncTables.perform {} SyncTables.sampleStore SyncTables.sampleScope 3000
        (.push failingBatch)).1 = .error (.rowNotFound "z") ∧
      (SyncTables.perform {} SyncTables.sampleStore SyncTables.sampleScope 3000
        (.push failingBatch)).2 = SyncTables.sampleStore) ∧
    (LocalTables.perform (LocalTables.perform ∅ SyncTables.sampleScope 5
      (.put ⟨"a", SyncTables.sampleNote "first"⟩)).2 SyncTables.sampleScope 6 (.delete "z")).2 =
        (LocalTables.perform ∅ SyncTables.sampleScope 5
          (.put ⟨"a", SyncTables.sampleNote "first"⟩)).2 ∧
    ((∅ : Store).transact SyncTables.sampleScope 7 fun txn => txn.applyAll failingBatch).2 = ∅ ∧
    (Database.performSync {} SyncTables.sampleScope 8 (.push failingBatch) ∅).2.tables = ∅ ∧
    (Database.performLocal SyncTables.sampleScope (.delete "z") ∅).2.tables = ∅ ∧
    ((overMemory {}).answer 9 failingPush).1.status = 404 ∧
      ((overMemory {}).answer 9 failingPush).2.backend.contents = .inl (∅, ∅) := by
  obtain ⟨hsync, hlocal, htransact, hdatabase, hdatabaseLocal, hanswer⟩ :=
    failures_leave_no_trace {}
  have hpush : (SyncTables.perform {} SyncTables.sampleStore SyncTables.sampleScope 3000
      (.push failingBatch)).1 = .error (.rowNotFound "z") := by decide +kernel
  have hstatus : ((overMemory {}).answer 9 failingPush).1.status = 404 := by decide +kernel
  have hfails : 400 ≤ ((overMemory {}).answer 9 failingPush).1.status := by
    rw [hstatus]
    decide
  refine ⟨⟨hpush, hsync _ SyncTables.reachable_sampleStore _ _ _ _ hpush⟩, ?_, ?_, ?_, ?_, hstatus,
    ?_⟩
  · exact hlocal _ (.call _ _ _ .empty) _ _ _ (.rowNotFound "z") (by decide +kernel)
  · exact htransact ∅ .empty _ _ _ _ _ (.rowNotFound "z") (by decide +kernel)
  · exact hdatabase ∅ _ _ _ (.refused (.rowNotFound "z")) (by decide +kernel)
  · exact hdatabaseLocal ∅ _ _ (.refused (.rowNotFound "z")) (by decide +kernel)
  · exact hanswer _ (.memory {}) 9 failingPush hfails

end Service

end RowSync
