import RowSync.Proofs.BulkWrites
import RowSync.Proofs.Timestamps

/-!
# Reports of Bulk Writes

A bulk write reports the last state of each row as it was written, and a reader asks for the rows
that changed after the mark of before. Both tell the same rows in the same order, and the reported
baseline is the mark of after, in a store for every call (`bulk_reports_agree`). In a database the
rows are reported before they were ever read back, so there the two agree just if the text of every
payload that is reported reads back as the payload.
-/

namespace RowSync

/-- Whether a call writes a batch as it is, whatever was changed in between. -/
def SyncCall.isBulk : SyncCall → Bool
  | .push _ | .replace _ => true
  | _ => false

variable {limits : Limits} {scope : Scope} {now : Timestamp} {call : SyncCall}
  {report : SyncReport}

/-- The report of rows that took a scope from one state to another: they are the changes after the
mark of before, and the mark of after is the baseline. -/
structure ReportsChanges (before after : ScopeState) (report : SyncReport) : Prop where
  /-- Told are the changes after the mark of before. -/
  changes : report.changes = after.changesAfter before.mark
  /-- The new baseline is the mark of after. -/
  newTimestamp : report.newTimestamp = after.mark

/-- A bulk write reports the changes that it made to the state of a scope. -/
theorem ScopeState.reportsChanges_perform {state state' : ScopeState} (hsound : state.Sound)
    (hbulk : call.isBulk)
    (h : state.perform limits now call = .ok (.report report, state')) :
    ReportsChanges state state' report := by
  cases call with
  | push batch =>
    obtain ⟨told, hpush, htold⟩ := writing_eq_ok h
    cases htold
    have hwritten := bulkWritten_of_push hsound hpush
    exact ⟨hwritten.changes, hwritten.newTimestamp⟩
  | replace given =>
    obtain ⟨told, hreplace, htold⟩ := writing_eq_ok h
    cases htold
    have hwritten := bulkWritten_of_replace hsound hreplace
    exact ⟨hwritten.changes, hwritten.newTimestamp⟩
  | _ => cases hbulk

namespace Database

variable {db db' : Database} {state : ScopeState} {batch : List Mutation}

/-- A batch that is applied against a database reports the changes that it made to the state of the
scope. Nothing is read back for it. -/
theorem Records.reportsChanges_applyBatch (h : Records db.tables scope state)
    (hbatch : applyBatch (.ofState scope now state) batch db = (.ok report, db')) :
    ∃ state', Records db'.tables scope state' ∧ ReportsChanges state state' report := by
  obtain ⟨⟨rows, writer⟩, between, happly, hbatch⟩ := bind_eq_ok hbatch
  cases hbatch
  have hwrote := h.wrote_applyAll happly
  refine ⟨_, hwrote.records, ScopeState.lastWritten_eq_changesAfter h.sound hwrote.fresh, ?_⟩
  rw [hwrote.writer_eq]
  rfl

/-- A transaction that reports changes which it made to the state of the scope does so, also when it
is committed. -/
theorem Records.reportsChanges_writing (h : Records db.tables scope state)
    {body : Writer → Session SyncReport}
    (hbody : ∀ {started ended : Database}, Records started.tables scope state →
      body (.ofState scope now state) started = (.ok report, ended) →
      ∃ state', Records ended.tables scope state' ∧ ReportsChanges state state' report)
    (hwriting : writing scope now body db = (.ok report, db')) :
    scope.IsKept ∧
      ∃ state', Records db'.tables scope state' ∧ ReportsChanges state state' report := by
  rcases h.writing_cases now body with
    ⟨e, after, hrun, -⟩ | ⟨told, started, ended, after, hrun, hstarted, htold, hended, hscope⟩
  · rw [hrun] at hwriting
    cases hwriting
  · rw [hrun] at hwriting
    cases hwriting
    obtain ⟨state', hrecords, hreports⟩ := hbody (hstarted.symm ▸ h) htold
    exact ⟨hscope, state', hended.symm ▸ hrecords, hreports⟩

/-- A bulk write against a database reports the changes that it made to the state of its scope. -/
theorem Records.reportsChanges_performSync (h : Records db.tables scope state)
    (hbulk : call.isBulk)
    (hcall : Database.performSync limits scope now call db = (.ok (.report report), db')) :
    scope.IsKept ∧
      ∃ state', Records db'.tables scope state' ∧ ReportsChanges state state' report := by
  cases call with
  | push batch =>
    obtain ⟨told, between, hpush, htold⟩ := bind_eq_ok hcall
    cases htold
    obtain ⟨_, checked, hcheck, hwriting⟩ := bind_eq_ok hpush
    obtain ⟨-, rfl⟩ := check_eq_ok hcheck
    exact h.reportsChanges_writing (fun hstarted => hstarted.reportsChanges_applyBatch) hwriting
  | replace given =>
    obtain ⟨told, between, hreplace, htold⟩ := bind_eq_ok hcall
    cases htold
    obtain ⟨_, checked, hcheck, hwriting⟩ := bind_eq_ok hreplace
    obtain ⟨-, rfl⟩ := check_eq_ok hcheck
    refine h.reportsChanges_writing (fun {started ended} hstarted hbody => ?_) hwriting
    -- Which ids are live is read first, and the batch is made from them.
    obtain ⟨live, read, hlive, hbody⟩ := bind_eq_ok hbody
    obtain ⟨batch, made, hmade, happly⟩ := bind_eq_ok hbody
    obtain ⟨-, rfl⟩ := check_eq_ok hmade
    have hread : made.tables = started.tables := (congrArg Prod.snd (run_eq_ok hlive)).symm
    rw [← hread] at hstarted
    exact hstarted.reportsChanges_applyBatch happly
  | _ => cases hbulk

end Database

/-- A bulk write that succeeds reports the rows that changed after the mark of before, in the order
in which a reader is told them, and the mark of after. In a store this is so for every call. In a
database, as soon as it can be read, the mark is as reported, and a reader is told the changes as
they were reported just if the text of each of their payloads reads back. -/
theorem bulk_reports_agree (limits : Limits) (scope : Scope) (now : Timestamp)
    (hbulk : call.isBulk) (report : SyncReport) :
    (∀ store, SyncTables.Reachable limits store →
      (SyncTables.perform limits store scope now call).1 = .ok (.report report) →
      let mark := (store.table scope).highWater
      let after := (SyncTables.perform limits store scope now call).2
      SyncTables.changesSince after scope mark = .ofChanges mark report.changes ∧
        (after.table scope).highWater = report.newTimestamp) ∧
    ∀ db history after later, Database.Run limits scope db history →
      Database.performSync limits scope now call db = (.ok (.report report), after) →
      later.Healthy → later.tables = after.tables →
      let mark := db.mark scope
      (Database.changesSince scope mark later = (.ok (.ofChanges mark report.changes), later) ↔
        ∀ row ∈ report.changes,
          Database.readPayload? (Database.payloadText row.payload) = some row.payload) ∧
        Database.highWater scope later = (.ok report.newTimestamp, later) := by
  constructor
  · intro store hreach htold mark after
    have hsound : store.Sound := SyncTables.sound_of_reachable hreach
    have hfollows : store.Follows scope (SyncTables.perform limits store scope now call) _ :=
      SyncTables.follows_perform hsound call
    have hreports : ReportsChanges (store.state scope) (after.state scope) report :=
      ScopeState.reportsChanges_perform (hsound scope).state hbulk (hfollows.eq_ok htold)
    refine ⟨?_, hreports.newTimestamp.symm⟩
    rw [SyncTables.changesSince, (hfollows.sound scope).rowsAfter_eq, hreports.changes]
    rfl
  · intro db history after later hrun hcall hhealthy htables mark
    obtain ⟨state, hrecords, -⟩ := hrun.records
    obtain ⟨hscope, state', hafter, hreports⟩ :=
      hrecords.reportsChanges_performSync hbulk hcall
    rw [← htables] at hafter
    have hmark : mark = state.mark := hrecords.mark_eq
    have hrange : state.mark ≤ maxTimestamp := hrecords.sound.mark_le
    rw [hmark, hreports.changes, hreports.newTimestamp]
    exact ⟨hafter.changesSince_eq_iff hhealthy hscope hrange, hafter.highWater_eq hhealthy hscope⟩

/-- A row with a double that does not read back from its shortest text. -/
def massRow : Row where
  id := "a"
  payload := .ofMembers [("mass", .num (.double ⟨false, 4157519176128740748⟩))]
  modifiedAt := 1000
  deleted := false

/-- A bulk write of the row. -/
def massPush : SyncCall := .push [.upsert massRow.id massRow.payload]

/-- The database in which the row was written at 1000. -/
def massDatabase : Database := (Database.performSync {} SyncTables.sampleScope 1000 massPush ∅).2

/-- A row that a store reports as written and deleted is told so to a reader. A database reports the
double that was written, and tells a reader the same just if its text reads back. -/
theorem bulk_reports_agree_sample :
    SyncTables.changesSince
        (SyncTables.perform {} SyncTables.sampleStore SyncTables.sampleScope 500
          (.push rewritingBatch)).2 SyncTables.sampleScope 2000 =
      .ofChanges 2000 [⟨"a", SyncTables.sampleNote "first", 2002, true⟩] ∧
    (Database.performSync {} SyncTables.sampleScope 1000 massPush ∅).1 =
      .ok (.report ⟨1000, [massRow], []⟩) ∧
    (Database.changesSince SyncTables.sampleScope 0 massDatabase =
        (.ok (.ofChanges 0 [massRow]), massDatabase) ↔
      Database.readPayload? (Database.payloadText massRow.payload) = some massRow.payload) := by
  have hbulk : (SyncCall.push rewritingBatch).isBulk := rfl
  obtain ⟨hstore, -⟩ := bulk_reports_agree {} SyncTables.sampleScope 500 hbulk
    ⟨2002, [⟨"a", SyncTables.sampleNote "first", 2002, true⟩], []⟩
  obtain ⟨htold, -⟩ := hstore _ SyncTables.reachable_sampleStore (by decide +kernel)
  have hreported : (Database.performSync {} SyncTables.sampleScope 1000 massPush ∅).1 =
      .ok (.report ⟨1000, [massRow], []⟩) := by decide +kernel
  have hbulk' : massPush.isBulk := rfl
  obtain ⟨-, hdatabase⟩ := bulk_reports_agree {} SyncTables.sampleScope 1000 hbulk'
    ⟨1000, [massRow], []⟩
  have hhealthy : massDatabase.Healthy := ⟨by decide +kernel, by decide +kernel⟩
  obtain ⟨hiff, -⟩ := hdatabase ∅ [] massDatabase massDatabase (.start rfl)
    (Prod.ext hreported rfl) hhealthy rfl
  refine ⟨htold, hreported, hiff.trans ?_⟩
  rw [List.forall_mem_singleton]

/-- The double that the database reports as written is told to a reader as its neighbour. -/
theorem reported_double_told_apart :
    (Database.performSync {} SyncTables.sampleScope 1000 massPush ∅).1 =
        .ok (.report ⟨1000, [massRow], []⟩) ∧
      (∅ : Database).mark SyncTables.sampleScope = 0 ∧
      (Database.changesSince SyncTables.sampleScope 0 massDatabase).1.map SyncReport.changes ≠
        .ok [massRow] := by
  refine ⟨by decide +kernel, by decide +kernel, ?_⟩
  decide +kernel

end RowSync
