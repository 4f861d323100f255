import RowSync.Proofs.BulkReports
import RowSync.Proofs.Http.Paths
import RowSync.Proofs.SingleRows

/-!
# Written Rows Are Addressable

Everything that is written over HTTP is addressable over HTTP (`Service.written_rows_addressable`).
After a row was posted to a sync table, the path with its id finds it, whatever characters the id
has: a look at the row tells it, its deletion tells it as a tombstone, and then the row is gone but
still listed among the changes. A row that was posted to a local table is told and removed. Over a
database a row is told as it was posted just if its payload reads back from the text that is stored.
-/

namespace RowSync

open Http

/-! ## Contents -/

theorem FlatRow.toJson_inj {row other : FlatRow} (h : row.toJson = other.toJson) : row = other := by
  obtain ⟨id, fields⟩ := row
  obtain ⟨id', fields'⟩ := other
  simp only [toJson, Json.obj.injEq, List.cons.injEq, Prod.mk.injEq, Json.str.injEq,
    true_and] at h
  obtain ⟨rfl, hfields⟩ := h
  rw [Payload.ext hfields]

/-- Only the reply with a flat row has the content of the flat row. -/
theorem LocalReply.eq_row_of_content {reply : LocalReply} {given : FlatRow}
    (h : reply.content = .json given.toJson) : reply = .row given := by
  cases reply with
  | row other => rw [FlatRow.toJson_inj (Content.json.inj h)]
  | rows => cases Content.json.inj h
  | done => cases h

/-- Only a reply with a report has the content of a report, and tells the same changes. -/
theorem SyncReply.exists_eq_report_of_content {reply : SyncReply} {report : SyncReport}
    (h : reply.content = .json report.toJson) :
    ∃ told, reply = .report told ∧ told.changes = report.changes := by
  cases reply with
  | report told =>
    refine ⟨told, rfl, ?_⟩
    have hjson : told.toJson = report.toJson := Content.json.inj h
    simp only [SyncReport.toJson, List.cons_append, Json.obj.injEq, List.cons.injEq, Prod.mk.injEq,
      Json.arr.injEq, true_and] at hjson
    exact List.map_injective_iff.2 (fun _ _ => Row.toJson_inj) hjson.2.1
  | row => simp [content, SyncReport.toJson, Row.toJson] at h
  | rows => cases Content.json.inj h
  | outcome => simp [content, SyncReport.toJson, EditOutcome.toJson] at h

/-- A row that is read from a request is the one that its content decodes to. -/
theorem Http.Request.ofText_of_decode {request : Request} {given : FlatRow}
    (h : request.decode FlatRow.decode = .ok given) :
    Json.Decoder.ofText FlatRow.decode request.content = .ok given := by
  have hread : request.readContent FlatRow.decode = .ok given := mapError_eq_ok_iff.1 h
  rw [readContent] at hread
  split at hread
  · cases hread
  · split at hread
    · cases hread
    · exact mapError_eq_ok_iff.1 hread

/-- A flat row that a text decodes to has no field under the key of its id. -/
theorem FlatRow.isIdFree_of_ofText {text : String} {given : FlatRow}
    (h : Json.Decoder.ofText decode text = .ok given) : given.fields.IsIdFree := by
  cases hdecode : decode (Json.Outline.read text).1 with
  | error e =>
    simp only [Json.Decoder.ofText, hdecode] at h
    cases e <;> cases h
  | ok row =>
    simp only [Json.Decoder.ofText, hdecode] at h
    split at h
    · cases h
      exact isIdFree_of_decode hdecode
    · cases h

namespace Service

variable {service : Service} {scope : Scope} {now : Timestamp} {request : Request} {status : Nat}
  {content : Content} {row : Row} {given : FlatRow} {id : RowId} {after : Backend}

/-! ## Answers to calls -/

/-- An answer with the status of success tells the content. -/
theorem exists_eq_ok_of_status (hstatus : status < 400) {outcome : Except CallError Content}
    (h : (answerCall status outcome).status = status) : ∃ told, outcome = .ok told := by
  cases outcome with
  | ok told => exact ⟨told, rfl⟩
  | error e =>
    have hfailure : 400 ≤ (Failure.ofCallError e).answer.status :=
      of_decide_eq_true (Failure.ofCallError e).isFailure_answer
    rw [answerCall] at h
    omega

/-- A call is answered with a content, and leaves the service as it is, just if it replies with this
content and leaves the backend as it is. -/
theorem answerCall_eq_iff {ρ : Type} {contentOf : ρ → Content} (hstatus : status < 400)
    {outcome : Except CallError ρ} :
    (answerCall status (outcome.map contentOf), service.withBackend after) =
        (⟨status, content⟩, service) ↔
      ∃ reply, (outcome, after) = (.ok reply, service.backend) ∧ contentOf reply = content := by
  constructor
  · intro h
    obtain ⟨hanswer, hservice⟩ := Prod.mk.inj h
    obtain ⟨told, htold⟩ := exists_eq_ok_of_status hstatus (congrArg Answer.status hanswer)
    obtain ⟨reply, rfl, rfl⟩ := map_eq_ok_iff.1 htold
    have hbackend : after = service.backend := congrArg backend hservice
    exact ⟨reply, by rw [hbackend], congrArg Answer.content hanswer⟩
  · rintro ⟨reply, hreply, rfl⟩
    cases hreply
    rfl

section Sync

variable {call : SyncCall} (hasks : request.Asks (.sync scope call))

include hasks

/-- A request for a call on a sync table is answered with the outcome of the call. -/
theorem answer_sync :
    service.answer now request =
      (answerCall call.status
          ((service.backend.performSync service.limits scope now call).1.map SyncReply.content),
        service.withBackend (service.backend.performSync service.limits scope now call).2) := by
  rw [answer_of_asked? hasks.asked hasks.whole, perform]

theorem answer_sync_eq_iff :
    service.answer now request = (⟨call.status, content⟩, service) ↔
      ∃ reply, service.backend.performSync service.limits scope now call =
        (.ok reply, service.backend) ∧ reply.content = content := by
  rw [answer_sync hasks]
  exact answerCall_eq_iff call.status_lt

end Sync

section Local

variable {call : LocalCall} (hasks : request.Asks (.onLocal scope call))

include hasks

/-- A request for a call on a local table is answered with the outcome of the call. -/
theorem answer_local :
    service.answer now request =
      (answerCall call.status
          ((service.backend.performLocal scope now call).1.map LocalReply.content),
        service.withBackend (service.backend.performLocal scope now call).2) := by
  rw [answer_of_asked? hasks.asked hasks.whole, perform]

theorem answer_local_eq_iff :
    service.answer now request = (⟨call.status, content⟩, service) ↔
      ∃ reply, service.backend.performLocal scope now call = (.ok reply, service.backend) ∧
        reply.content = content := by
  rw [answer_local hasks]
  exact answerCall_eq_iff call.status_lt

end Local

/-- The answer to a request for a row that is not there. -/
def notFound (id : RowId) : Answer := ⟨404, .json (.obj [("error", .str ("row not found: " ++ id))])⟩

/-- The answer to a write when the largest timestamp has been assigned. -/
def exhausted : Answer :=
  ⟨500, .json (.obj [("error", .str "Storage error"), ("details",
    .str ("storage failure: timestamp space exhausted at " ++ toString maxTimestamp.toNat))])⟩

/-! ## Rows of sync tables -/

/-- A tombstone counts as no row, but is listed among the changes. -/
structure HasTombstone (service : Service) (scope : Scope) (tombstone : Row) : Prop where
  /-- Nothing is found under the id. -/
  gone : ∀ (now : Timestamp) (request : Request), request.OfRow .get scope tombstone.id .row →
    service.answer now request = (notFound tombstone.id, service)
  /-- The tombstone is listed among all changes just if all rows of the table can be read. -/
  listed : ∀ (now : Timestamp) (request : Request),
    request.InScope .get scope (.changesSince · · "0") →
    ((∃ report : SyncReport, service.answer now request = (⟨200, .json report.toJson⟩, service) ∧
      tombstone ∈ report.changes) ↔ service.backend.IsReadable scope)

/-- A row is told and deleted by the paths that spell its id. -/
structure Addresses (service : Service) (scope : Scope) (row : Row) : Prop where
  /-- The row is told as it is just if its payload reads back. -/
  told : ∀ (now : Timestamp) (request : Request), request.OfRow .get scope row.id .row →
    (service.answer now request = (⟨200, .json row.toJson⟩, service) ↔
      service.backend.ReadsBack row.payload)
  /-- The row is told as a tombstone when it is deleted, and stays one, just if its payload reads
  back, unless it has the largest timestamp. -/
  deleted : row.modifiedAt ≠ maxTimestamp →
    ∀ (now : Timestamp) (request : Request), request.OfRow .delete scope row.id .row →
    ((∃ time after, service.answer now request = (⟨200, .json (row.entomb time).toJson⟩, after) ∧
      after.HasTombstone scope (row.entomb time)) ↔ service.backend.ReadsBack row.payload)
  /-- A row with the largest timestamp is not deleted. -/
  kept : service.backend.ReadsBack row.payload → row.modifiedAt = maxTimestamp →
    ∀ (now : Timestamp) (request : Request), request.OfRow .delete scope row.id .row →
    (service.answer now request).1 = exhausted

section Sync

variable (hscope : scope.IsValid) (hfixed : scope.table ∉ Resource.fixedWords)
  (h : service.backend.LastWrote scope row)

include hscope hfixed h

theorem hasTombstone_of_lastWrote (hdeleted : row.deleted = true)
    (hreads : service.backend.ReadsBack row.payload) : service.HasTombstone scope row where
  gone now request hrow := by
    have hasks := (Request.OfRow.asks hscope h.id_ne_empty hfixed).1 hrow
    rw [answer_sync hasks, h.row_eq_error hdeleted hreads]
    rfl
  listed now request hchanges := by
    have hasks := hchanges.asks_changesSince_zero hscope
    have hlists := h.changesSince_lists_iff service.limits now
    rw [and_iff_right hreads] at hlists
    rw [← hlists]
    constructor
    · rintro ⟨report, hanswer, hmem⟩
      obtain ⟨reply, hcall, hcontent⟩ := (answer_sync_eq_iff hasks).1 hanswer
      obtain ⟨told, rfl, hsame⟩ := SyncReply.exists_eq_report_of_content hcontent
      exact ⟨told, hcall, hsame ▸ hmem⟩
    · rintro ⟨report, hcall, hmem⟩
      exact ⟨report, (answer_sync_eq_iff hasks).2 ⟨_, hcall, rfl⟩, hmem⟩

theorem addresses_of_lastWrote (hlive : row.deleted = false) : service.Addresses scope row where
  told now request hrow := by
    have hasks := (Request.OfRow.asks hscope h.id_ne_empty hfixed).1 hrow
    rw [← h.row_eq_iff hlive]
    -- No other reply has the content of the row.
    refine (answer_sync_eq_iff hasks).trans ⟨?_, fun hcall => ⟨_, hcall, rfl⟩⟩
    rintro ⟨reply, hcall, hcontent⟩
    rwa [SyncReply.eq_row_of_content hcontent] at hcall
  deleted hne now request hrow := by
    have hasks := (Request.OfRow.asks hscope h.id_ne_empty hfixed).2 hrow
    constructor
    · rintro ⟨time, later, hanswer, -⟩
      rw [answer_sync hasks] at hanswer
      have hreply := eq_row_of_answerCall (SyncCall.status_lt _) (congrArg Prod.fst hanswer)
      exact h.reads_of_delete (Prod.ext hreply rfl)
    · intro hreads
      obtain ⟨time, after, hcall, hwrote⟩ := (h.delete_eq hreads service.limits now).2 hne
      -- The backend is of the same kind, so that the payload still reads back.
      have hreads' : after.ReadsBack row.payload := by
        rwa [← Backend.readsBack_performSync, hcall] at hreads
      refine ⟨time, service.withBackend after, ?_, ?_⟩
      · rw [answer_sync hasks, hcall]
        rfl
      · exact hasTombstone_of_lastWrote hscope hfixed hwrote rfl hreads'
  kept hreads heq now request hrow := by
    have hasks := (Request.OfRow.asks hscope h.id_ne_empty hfixed).2 hrow
    rw [answer_sync hasks]
    dsimp only
    rw [(h.delete_eq hreads service.limits now).1 heq]
    rfl

end Sync

/-! ## Rows of local tables -/

/-- There is no row with the id in the local table: neither a look at it nor its deletion finds
one. -/
structure LacksLocalRow (service : Service) (scope : Scope) (id : RowId) : Prop where
  /-- Nothing is found under the id. -/
  gone : ∀ (now : Timestamp) (request : Request), request.OfRow .get scope id .localRow →
    service.answer now request = (notFound id, service)
  /-- Nothing is left to delete. -/
  removed : ∀ (now : Timestamp) (request : Request), request.OfRow .delete scope id .localRow →
    (service.answer now request).1 = notFound id

/-- A row of a local table is told and removed by the paths that spell its id. -/
structure AddressesLocal (service : Service) (scope : Scope) (given : FlatRow) : Prop where
  /-- The row is told as it is just if its payload reads back. -/
  told : ∀ (now : Timestamp) (request : Request), request.OfRow .get scope given.id .localRow →
    (service.answer now request = (⟨200, .json given.toJson⟩, service) ↔
      service.backend.ReadsBack given.fields)
  /-- The row is removed, be it readable or not. -/
  deleted : ∀ (now : Timestamp) (request : Request),
    request.OfRow .delete scope given.id .localRow →
    ∃ after, service.answer now request = (⟨200, .empty⟩, after) ∧
      after.LacksLocalRow scope given.id

section Local

variable (hscope : scope.IsValid)

include hscope

theorem lacksLocalRow_of_lacksLocal (hvalid : checkRowId id = .ok ())
    (h : service.backend.LacksLocal scope id) : service.LacksLocalRow scope id where
  gone now request hrow := by
    have hasks := (Request.OfRow.asksLocal hscope (ne_empty_of_checkRowId hvalid)).1 hrow
    rw [answer_local hasks, h.row_eq hvalid]
    rfl
  removed now request hrow := by
    have hasks := (Request.OfRow.asksLocal hscope (ne_empty_of_checkRowId hvalid)).2 hrow
    rw [answer_local hasks]
    dsimp only
    rw [h.delete_eq hvalid]
    rfl

theorem addressesLocal_of_storesLocal (hvalid : checkRowId given.id = .ok ())
    (h : service.backend.StoresLocal scope given) : service.AddressesLocal scope given where
  told now request hrow := by
    have hasks := (Request.OfRow.asksLocal hscope (ne_empty_of_checkRowId hvalid)).1 hrow
    rw [← h.row_eq_iff hvalid]
    refine (answer_local_eq_iff hasks).trans ⟨?_, fun hcall => ⟨_, hcall, rfl⟩⟩
    rintro ⟨reply, hcall, hcontent⟩
    rwa [LocalReply.eq_row_of_content hcontent] at hcall
  deleted now request hrow := by
    have hasks := (Request.OfRow.asksLocal hscope (ne_empty_of_checkRowId hvalid)).2 hrow
    obtain ⟨after, hcall, hlacks⟩ := h.delete_eq hvalid now
    refine ⟨service.withBackend after, ?_, lacksLocalRow_of_lacksLocal hscope hvalid hlacks⟩
    rw [answer_local hasks, hcall]
    rfl

end Local

/-! ## Written rows -/

/-- The sync tables of a service that was reached from no rows have sound states. -/
theorem FromEmpty.isSound (h : service.FromEmpty) : service.backend.IsSound := by
  induction h with
  | memory limits => exact Store.sound_empty
  | @database db limits hempty =>
    intro scope
    exact ⟨_, Database.records_initial (congrArg Database.Tables.syncRows hempty) scope⟩
  | disturb isReachable fault _ ih => exact ih
  | @answer service now request _ ih =>
    cases hasked : request.asked? with
    | none => rwa [answer_snd_of_asked?_eq_none hasked]
    | some action =>
      rw [answer_snd_of_asked? hasked]
      cases action with
      | greet | report => exact ih
      | sync scope call => exact ih.performSync service.limits scope now call
      | onLocal scope call => exact ih.performLocal scope now call

/-- A request to put a row that is answered with a creation asks to put the row that its content
decodes to. -/
theorem exists_asks_of_created {toAction : FlatRow → Action}
    (hput : request.asked? = (request.decode FlatRow.decode).toOption.map toAction)
    (hhead : request.method ≠ .head) (hstatus : (service.answer now request).1.status = 201) :
    ∃ given, Json.Decoder.ofText FlatRow.decode request.content = .ok given ∧
      request.Asks (toAction given) := by
  -- A request that cannot be read is not answered with a creation.
  obtain ⟨action, hasked⟩ := exists_asked?_of_status hstatus
  rw [hput] at hasked
  cases hdecode : request.decode FlatRow.decode with
  | error e =>
    rw [hdecode] at hasked
    cases hasked
  | ok given =>
    refine ⟨given, Request.ofText_of_decode hdecode, ?_, hhead⟩
    rw [hput, hdecode]
    rfl

/-- Whatever requests were answered before, over stores or over a database that can be reached, what
is written can be addressed. Every name can be spelled in a path. If posting to a sync table is
answered with a creation, unless the table has the name of a fixed word, then the answer tells the
row that the content decodes to, and the paths that spell the id address it. If posting to a local
table is answered with a creation, then the answer tells what the content decodes to, and the paths
that spell the id address it. -/
theorem written_rows_addressable (h : service.FromEmpty) (hhealthy : service.backend.IsHealthy) :
    (∀ name, Spells (Text.percentEncode name) name) ∧
    (∀ (scope : Scope) (now : Timestamp) (request : Request), scope.IsValid →
      scope.table ∉ Resource.fixedWords → request.InScope .post scope .table →
      (service.answer now request).1.status = 201 →
      ∃ given time, Json.Decoder.ofText FlatRow.decode request.content = .ok given ∧
        let row := Row.create given.id given.fields time
        (service.answer now request).1 = ⟨201, .json row.toJson⟩ ∧
          (service.answer now request).2.Addresses scope row) ∧
    ∀ (scope : Scope) (now : Timestamp) (request : Request), scope.IsValid →
      request.InScope .post scope .localTable → (service.answer now request).1.status = 201 →
      ∃ given, Json.Decoder.ofText FlatRow.decode request.content = .ok given ∧
        (service.answer now request).1 = ⟨201, .json given.toJson⟩ ∧
          (service.answer now request).2.AddressesLocal scope given := by
  refine ⟨spells_percentEncode, ?_, ?_⟩
  · intro scope now request hscope hfixed hpost hstatus
    -- The answer tells that the row of the content was put, which is then the last that was written.
    obtain ⟨given, hcontent, hasks⟩ :=
      exists_asks_of_created (hpost.asked?_put hscope) (hpost.method_ne (by decide)) hstatus
    rw [answer_sync hasks] at hstatus ⊢
    obtain ⟨told, htold⟩ := exists_eq_ok_of_status (SyncCall.status_lt (.put _ _)) hstatus
    obtain ⟨reply, hreply, -⟩ := map_eq_ok_iff.1 htold
    obtain ⟨time, rfl, hwrote⟩ :=
      Backend.lastWrote_put h.isSound hhealthy (Prod.ext hreply rfl)
    refine ⟨given, time, hcontent, ?_, addresses_of_lastWrote hscope hfixed hwrote rfl⟩
    rw [hreply]
    rfl
  · intro scope now request hscope hpost hstatus
    obtain ⟨given, hcontent, hasks⟩ :=
      exists_asks_of_created (hpost.asked?_putLocal hscope) (hpost.method_ne (by decide)) hstatus
    rw [answer_local hasks] at hstatus ⊢
    obtain ⟨told, htold⟩ := exists_eq_ok_of_status (LocalCall.status_lt (.put _)) hstatus
    obtain ⟨reply, hreply, -⟩ := map_eq_ok_iff.1 htold
    obtain ⟨rfl, hvalid, hstores⟩ := Backend.storesLocal_put h.named hhealthy
      (FlatRow.isIdFree_of_ofText hcontent) (Prod.ext hreply rfl)
    -- The row was decoded, so that its id is not among its fields and it is told as it was posted.
    refine ⟨given, hcontent, ?_, addressesLocal_of_storesLocal hscope hvalid hstores⟩
    rw [hreply]
    rfl

/-- A row whose id has a slash, a percent sign, a plus sign and a blank. -/
def oddRow : Row := ⟨"a/b%+ c", SyncTables.sampleNote "x", 1000, false⟩

/-- A write of the row for a user whose name is not ASCII. -/
def oddPut : Request :=
  ⟨.post, (Resource.table "notes" (Text.percentEncode "zoë")).path, some "application/json",
    "\x7b\"uniqueId\":\"a/b%+ c\",\"text\":\"x\"\x7d"⟩

/-- A request for the row. -/
def oddRequest (method : Method) : Request :=
  ⟨method, (Resource.row "notes" (Text.percentEncode "zoë") (Text.percentEncode oddRow.id)).path,
    none, ""⟩

/-- The service over a database in which the row was written. -/
def oddService : Service := ((overDatabase {}).answer 1000 oddPut).2

/-- The row with the odd id is told and deleted, and then it is gone. -/
theorem written_rows_addressable_sample :
    ((overDatabase {}).answer 1000 oddPut).1 = ⟨201, .json oddRow.toJson⟩ ∧
    oddService.answer 1005 (oddRequest .get) = (⟨200, .json oddRow.toJson⟩, oddService) ∧
    (∃ time after,
      oddService.answer 1010 (oddRequest .delete) =
        (⟨200, .json (oddRow.entomb time).toJson⟩, after) ∧
      after.answer 1015 (oddRequest .get) = (notFound oddRow.id, after)) ∧
    ∃ after,
      ((overMemory {}).answer 1000 localPut).2.answer 1010
          ⟨.delete, "/localtable/notes/u1/a", none, ""⟩ = (⟨200, .empty⟩, after) ∧
        after.answer 1015 ⟨.get, "/localtable/notes/u1/a", none, ""⟩ = (notFound "a", after) := by
  have hempty : FromEmpty (overDatabase {}) ∧ FromEmpty (overMemory {}) :=
    ⟨.database {} rfl, .memory {}⟩
  obtain ⟨hspells, hdatabase, -⟩ := written_rows_addressable hempty.1 ⟨rfl, rfl⟩
  have hput : ((overDatabase {}).answer 1000 oddPut).1 = ⟨201, .json oddRow.toJson⟩ := by
    decide +kernel
  have hscope : Scope.IsValid ⟨"notes", "zoë"⟩ :=
    (Scope.ofNames_eq_ok_iff.1 (by decide : Scope.ofNames "notes" "zoë" = .ok _)).2
  have hrow (method : Method) : (oddRequest method).OfRow method ⟨"notes", "zoë"⟩ oddRow.id .row :=
    ⟨_, hspells _, _, hspells _, rfl, rfl⟩
  obtain ⟨given, time, -, htold, haddresses⟩ := hdatabase _ 1000 oddPut hscope (by decide)
    ⟨_, hspells _, rfl, rfl⟩ (congrArg Answer.status hput)
  have hsame : Row.create given.id given.fields time = oddRow :=
    Row.toJson_inj (Content.json.inj (congrArg Answer.content (htold.symm.trans hput)))
  rw [hsame] at haddresses
  have hreads : oddService.backend.ReadsBack oddRow.payload := by decide +kernel
  refine ⟨hput, (haddresses.told 1005 _ (hrow .get)).2 hreads, ?_, ?_⟩
  · obtain ⟨later, after, hdeleted, htombstone⟩ :=
      (haddresses.deleted (by decide) 1010 _ (hrow .delete)).2 hreads
    exact ⟨later, after, hdeleted, htombstone.gone 1015 _ (hrow .get)⟩
  · obtain ⟨-, -, hlocal⟩ :=
      written_rows_addressable (.memory {} : FromEmpty (overMemory {})) ⟨rfl, trivial⟩
    have hvalid : Scope.IsValid ⟨"notes", "u1"⟩ :=
      (Scope.ofNames_eq_ok_iff.1 (by decide : Scope.ofNames "notes" "u1" = .ok _)).2
    have hanswer : ((overMemory {}).answer 1000 localPut).1 =
        ⟨201, .json (FlatRow.mk "a" (SyncTables.sampleNote "z")).toJson⟩ := by decide +kernel
    obtain ⟨posted, -, hposted, hkept⟩ := hlocal _ 1000 localPut hvalid
      ⟨"u1", by decide +kernel, by decide +kernel⟩ (congrArg Answer.status hanswer)
    have hgiven : posted = FlatRow.mk "a" (SyncTables.sampleNote "z") :=
      FlatRow.toJson_inj (Content.json.inj (congrArg Answer.content (hposted.symm.trans hanswer)))
    rw [hgiven] at hkept
    obtain ⟨after, hdeleted, hlacks⟩ := hkept.deleted 1010
      ⟨.delete, "/localtable/notes/u1/a", none, ""⟩
      ⟨"a", by decide +kernel, "u1", by decide +kernel, by decide +kernel⟩
    exact ⟨after, hdeleted, hlacks.gone 1015 _
      ⟨"a", by decide +kernel, "u1", by decide +kernel, by decide +kernel⟩⟩

/-- Over a database the double that is posted is told as its neighbour by the path of its row. -/
theorem posted_double_not_told :
    FromEmpty (overDatabase {}) ∧ (overDatabase {}).backend.IsHealthy ∧
      doublePut.InScope .post ⟨"notes", "u1"⟩ .table ∧
      rowGet.OfRow .get ⟨"notes", "u1"⟩ massRow.id .row ∧
      ((overDatabase {}).answer 1000 doublePut).1 = ⟨201, .json massRow.toJson⟩ ∧
      (((overDatabase {}).answer 1000 doublePut).2.answer 1005 rowGet).1 ≠
        ⟨200, .json massRow.toJson⟩ := by
  refine ⟨.database {} rfl, ⟨rfl, rfl⟩, ⟨"u1", by decide +kernel, by decide +kernel⟩,
    ⟨"a", by decide +kernel, "u1", by decide +kernel, by decide +kernel⟩, ?_, ?_⟩
  · decide +kernel
  · decide +kernel

end Service

end RowSync
