import RowSync.Proofs.Arguments
import RowSync.Proofs.Database.Names
import RowSync.Proofs.Failures
import RowSync.Proofs.Isolation
import RowSync.Proofs.Requests

/-!
# Only Valid Names Are Stored

Whatever requests a service answers, over stores or over a database, every row of a sync table or of
a local table is in a valid scope and has a valid id, no batch or replacement is applied that has
more entries than the limits allow, and every id that a call tells can be given back as an argument
(`Service.only_valid_names`). The scope of a call is checked when the request is read, and its row
ids by each of the calls for itself.
-/

namespace RowSync

variable {scope : Scope} {limits : Limits} {now : Timestamp} {call : SyncCall} {count : Nat}

/-! ## Batches that are too long -/

/-- The number of mutations of a batch, or of rows of a replacement. -/
def SyncCall.entries? : SyncCall → Option Nat
  | .sync _ batch | .push batch => some batch.length
  | .replace given => some given.length
  | _ => none

/-- A call with too many entries does not pass its check. -/
theorem SyncCall.check_of_entries? (h : call.entries? = some count) (hlt : limits.maxBatch < count)
    (now : Timestamp) :
    call.check limits now = .error (.batchLength count limits.maxBatch) ∧ call.script?.isSome := by
  have hlength : limits.checkLength count = .error (.batchLength count limits.maxBatch) := by
    rw [Limits.checkLength, if_pos hlt]
  cases call with
  | sync base batch | push batch =>
    cases h
    exact ⟨congrArg (· >>= fun _ => batch.forM Mutation.check) hlength, rfl⟩
  | replace given =>
    cases h
    exact ⟨hlength, rfl⟩
  | _ => cases h

/-! ## Backends -/

namespace Backend

variable {backend : Backend}

/-- The backend has a row with the id in the table, be it a tombstone. -/
def HasRow (ref : TableRef) (id : RowId) : Backend → Prop
  | memory syncStore localStore =>
    match ref with
    | .sync scope => ∃ row, (syncStore.table scope).get? id = some row
    | .onLocal scope => ∃ row, (localStore.table scope).get? id = some row
  | database db =>
    match ref with
    | .sync scope => ∃ stored, db.tables.syncRows.get? (.ofScope scope id) = some stored
    | .onLocal scope => ∃ text, db.tables.localRows.get? (.ofScope scope id) = some text

/-- Every row of the backend is in a valid scope and has a valid id. -/
def Named : Backend → Prop
  | memory syncStore localStore => syncStore.Named ∧ localStore.Named
  | database db => db.tables.Named

theorem Named.of_hasRow (h : backend.Named) {ref : TableRef} {id : RowId}
    (hrow : backend.HasRow ref id) : ref.scope.IsValid ∧ id.IsValid := by
  cases backend with
  | memory syncStore localStore =>
    cases ref with
    | sync scope =>
      obtain ⟨row, hget⟩ := hrow
      obtain ⟨hscope, -, hid⟩ := h.1 scope id row hget
      exact ⟨hscope, hid⟩
    | onLocal scope =>
      obtain ⟨row, hget⟩ := hrow
      obtain ⟨hscope, -, hid⟩ := h.2 scope id row hget
      exact ⟨hscope, hid⟩
  | database db =>
    have hdb : db.tables.Named := h
    cases ref with
    | sync scope =>
      obtain ⟨stored, hget⟩ := hrow
      have hkey := hdb.syncRows _ stored hget
      exact ⟨hkey.scope, hkey.id⟩
    | onLocal scope =>
      obtain ⟨text, hget⟩ := hrow
      have hkey := hdb.localRows _ text hget
      exact ⟨hkey.scope, hkey.id⟩

/-- A call on a sync table of a valid scope keeps the backend validly named, and tells valid ids. -/
theorem Named.performSync (h : backend.Named) (hscope : scope.IsValid) (limits : Limits)
    (now : Timestamp) (call : SyncCall) :
    (backend.performSync limits scope now call).2.Named ∧
      ∀ reply, (backend.performSync limits scope now call).1 = .ok reply →
        AllValid reply.rowIds := by
  cases backend with
  | memory syncStore localStore =>
    have hcall := h.1.performSync hscope limits now call
    exact ⟨⟨hcall.named, h.2⟩, fun reply hreply => hcall.told reply (mapError_eq_ok_iff.1 hreply)⟩
  | database db =>
    have hcall := Database.tells_performSync hscope limits now call
    exact ⟨hcall.named db h, fun reply hreply => hcall.told db reply _ h (Prod.ext hreply rfl)⟩

/-- A call on a local table of a valid scope keeps the backend validly named, and tells valid
ids. -/
theorem Named.performLocal (h : backend.Named) (hscope : scope.IsValid) (now : Timestamp)
    (call : LocalCall) :
    (backend.performLocal scope now call).2.Named ∧
      ∀ reply, (backend.performLocal scope now call).1 = .ok reply → AllValid reply.rowIds := by
  cases backend with
  | memory syncStore localStore =>
    have hcall := h.2.performLocal hscope now call
    exact ⟨⟨h.1, hcall.named⟩, fun reply hreply => hcall.told reply (mapError_eq_ok_iff.1 hreply)⟩
  | database db =>
    have hcall := Database.tells_performLocal hscope call
    exact ⟨hcall.named db h, fun reply hreply => hcall.told db reply _ h (Prod.ext hreply rfl)⟩

/-- A call with too many entries is refused, and leaves the backend as it is. -/
theorem performSync_of_entries? (h : call.entries? = some count) (hlt : limits.maxBatch < count)
    (backend : Backend) (scope : Scope) (now : Timestamp) :
    backend.performSync limits scope now call =
      (.error (.refused (.batchLength count limits.maxBatch)), backend) := by
  obtain ⟨hcheck, hsome⟩ := SyncCall.check_of_entries? h hlt now
  obtain ⟨script, hscript⟩ := Option.isSome_iff_exists.1 hsome
  cases backend with
  | memory syncStore localStore =>
    simp only [Backend.performSync, SyncTables.perform_of_script hscript, hcheck]
    rfl
  | database db =>
    simp only [Backend.performSync, Database.performSync_of_script hscript, hcheck]
    rfl

end Backend

/-! ## Requests -/

namespace Service

open Http

variable {service : Service}

/-- The services that are reached by answering requests from no rows at all, over stores or over a
database, which may go out of reach or come back, or get a fault. -/
inductive FromEmpty : Service → Prop
  | memory (limits : Limits) : FromEmpty ⟨.memory ∅ ∅, limits⟩
  | database {db : Database} (limits : Limits) (hempty : db.tables = ∅) :
    FromEmpty ⟨.database db, limits⟩
  | answer {service : Service} (now : Timestamp) (request : Request) (h : FromEmpty service) :
    FromEmpty (service.answer now request).2
  | disturb {db : Database} {limits : Limits} (isReachable : Bool) (fault : Option Database.Fault)
    (h : FromEmpty ⟨.database db, limits⟩) :
    FromEmpty ⟨.database { db with isReachable, fault }, limits⟩

theorem FromEmpty.named (h : service.FromEmpty) : service.backend.Named := by
  induction h with
  | memory limits => exact ⟨Store.named_empty, Store.named_empty⟩
  | @database db limits hempty =>
    show db.tables.Named
    rw [hempty]
    exact Database.Tables.named_empty
  | disturb isReachable fault _ ih => exact ih
  | @answer service now request _ ih =>
    cases hasked : request.asked? with
    | none => rwa [answer_snd_of_asked?_eq_none hasked]
    | some action =>
      rw [answer_snd_of_asked? hasked]
      -- A call that is asked for is on a valid scope.
      cases action with
      | greet | report => exact ih
      | sync scope call =>
        exact (ih.performSync (Request.isValid_of_asked? hasked rfl) service.limits now call).1
      | onLocal scope call =>
        exact (ih.performLocal (Request.isValid_of_asked? hasked rfl) now call).1

/-- Whatever requests were answered, every row is in a valid scope and has a valid id. A request
that asks to apply a batch or a replacement with too many entries leaves the service as it is. Every
id that a call tells, on a sync table or on a local one, is valid and so is accepted as an
argument. -/
theorem only_valid_names (h : service.FromEmpty) :
    (∀ ref id, service.backend.HasRow ref id → ref.scope.IsValid ∧ id.IsValid) ∧
    (∀ (request : Request) now scope call count, request.asked? = some (.sync scope call) →
      call.entries? = some count → service.limits.maxBatch < count →
      (service.backend.performSync service.limits scope now call).1 =
          .error (.refused (.batchLength count service.limits.maxBatch)) ∧
        (service.answer now request).2 = service) ∧
    (∀ (request : Request) now scope call reply, request.asked? = some (.sync scope call) →
      (service.backend.performSync service.limits scope now call).1 = .ok reply →
      ∀ id ∈ reply.rowIds, id.IsValid ∧
        ∀ (backend : Backend) later, backend.Accepts service.limits scope later id) ∧
    ∀ (request : Request) now scope call reply, request.asked? = some (.onLocal scope call) →
      (service.backend.performLocal scope now call).1 = .ok reply →
      ∀ id ∈ reply.rowIds, id.IsValid ∧
        ∀ (backend : Backend) later, backend.Accepts service.limits scope later id := by
  have hnamed := h.named
  -- The first part is the invariant, and the last two are what a call tells of it.
  refine ⟨fun ref id hrow => hnamed.of_hasRow hrow, ?_, ?_, ?_⟩
  · intro request now scope call count hasked hentries hlt
    have hcall := Backend.performSync_of_entries? hentries hlt service.backend scope now
    rw [answer_snd_of_asked? hasked, perform, hcall]
    exact ⟨rfl, rfl⟩
  · intro request now scope call reply hasked hreply id hid
    have hscope : scope.IsValid := Request.isValid_of_asked? hasked rfl
    have hvalid := (hnamed.performSync hscope service.limits now call).2 reply hreply id hid
    exact ⟨hvalid, fun backend later =>
      Backend.accepts_of_isValid hvalid backend service.limits scope later⟩
  · intro request now scope call reply hasked hreply id hid
    have hscope : scope.IsValid := Request.isValid_of_asked? hasked rfl
    have hvalid := (hnamed.performLocal hscope now call).2 reply hreply id hid
    exact ⟨hvalid, fun backend later =>
      Backend.accepts_of_isValid hvalid backend service.limits scope later⟩

/-- A service over stores, with two entries to a batch, after a write to a sync table and one to the
local table of the same names. -/
def namedService : Service :=
  ⟨.memory
    (SyncTables.perform {} ∅ ⟨"notes", "u1"⟩ 1000 (.put "a" (SyncTables.sampleNote "x"))).2
    (LocalTables.perform ∅ ⟨"notes", "u1"⟩ 1010 (.put ⟨"a", SyncTables.sampleNote "z"⟩)).2,
  { maxBatch := 2 }⟩

/-- The rows of both tables have valid names, and the id that is told of one is accepted. A batch of
three is refused and leaves the service as it is. -/
theorem only_valid_names_sample :
    (((overMemory { maxBatch := 2 }).answer 1000 textPut).2.answer 1010 localPut).2 = namedService ∧
    Scope.IsValid ⟨"notes", "u1"⟩ ∧ RowId.IsValid "a" ∧
    (∀ (backend : Backend) later,
      backend.Accepts { maxBatch := 2 } ⟨"notes", "u1"⟩ later "a") ∧
    (namedService.answer 2000 failingPush).2 = namedService := by
  have hanswered : (((overMemory { maxBatch := 2 }).answer 1000 textPut).2.answer 1010 localPut).2 =
      namedService := by decide +kernel
  have hreached : FromEmpty namedService := hanswered ▸ .answer _ _ (.answer _ _ (.memory _))
  obtain ⟨hnames, hlong, htold, -⟩ := only_valid_names hreached
  have hrow : namedService.backend.HasRow (.sync ⟨"notes", "u1"⟩) "a" :=
    ⟨⟨"a", SyncTables.sampleNote "x", 1000, false⟩, by decide +kernel⟩
  have hlocalRow : namedService.backend.HasRow (.onLocal ⟨"notes", "u1"⟩) "a" :=
    ⟨⟨"a", SyncTables.sampleNote "z", 1010, false⟩, by decide +kernel⟩
  have hget : rowGet.asked? = some (.sync ⟨"notes", "u1"⟩ (.row "a")) := by decide +kernel
  have hreply : (namedService.backend.performSync { maxBatch := 2 } ⟨"notes", "u1"⟩ 2000
      (.row "a")).1 = .ok (.row ⟨"a", SyncTables.sampleNote "x", 1000, false⟩) := by decide +kernel
  have hpush : failingPush.asked? = some (.sync ⟨"notes", "ann"⟩
      (.push [.upsert "a" (.ofMembers []), .delete "a", .delete "z"])) := by decide +kernel
  refine ⟨hanswered, (hnames _ _ hrow).1, (hnames _ _ hlocalRow).2, fun backend later => ?_, ?_⟩
  · exact (htold rowGet 2000 _ _ _ hget hreply "a" (by decide)).2 backend later
  · exact (hlong failingPush 2000 _ _ 3 hpush rfl (by decide)).2

end Service

end RowSync
