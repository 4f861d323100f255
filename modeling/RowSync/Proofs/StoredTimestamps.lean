import RowSync.Proofs.BulkReports
import RowSync.Proofs.Database.BoundTimes
import RowSync.Proofs.Database.Columns
import RowSync.Proofs.Requests

/-!
# Timestamps across the Boundary of the Database

Timestamps cross into the database and back without loss, whatever requests a service over a
database answers and at whatever times (`Service.timestamps_cross_unchanged`). Every timestamp that
is bound to a statement fits in a signed word. Every row that is read has the timestamp and the
state that it was last written with, and a writer takes up its clock from the largest timestamp that
was committed. Only the payload of a row may read back as another one: just where its text does
(`Database.ColumnsOf.toRow?_eq_iff`).
-/

namespace RowSync.Service

open Http Database

variable {service : Service} {scope : Scope} {history : List Row}

/-- The rows that the service writes to a scope as it answers a request, in the order of writing. A
request that reads writes none, and neither does one that fails or is on another table. -/
def rowsWritten (service : Service) (scope : Scope) (now : Timestamp) (request : Request) :
    List Row :=
  match service.backend, request.asked? with
  | .database db, some (.sync other call) =>
    if other = scope then Database.rowsWritten service.limits db scope now call else []
  | _, _ => []

/-- The services over a database that are reached by answering requests at any times, with the rows
that were written to one of the scopes. At the start there are no rows in sync tables. At any time
the database may go out of reach or come back, or get a fault. -/
inductive Served (scope : Scope) : Service → List Row → Prop
  | start {db : Database} (limits : Limits) (hempty : db.tables.syncRows = ∅) :
    Served scope ⟨.database db, limits⟩ []
  | answer {service : Service} {history : List Row} (now : Timestamp) (request : Request)
    (hserved : Served scope service history) :
    Served scope (service.answer now request).2
      (history ++ service.rowsWritten scope now request)
  | disturb {db : Database} {limits : Limits} {history : List Row} (isReachable : Bool)
    (fault : Option Fault) (hserved : Served scope ⟨.database db, limits⟩ history) :
    Served scope ⟨.database { db with isReachable, fault }, limits⟩ history

/-- Answering requests is a run of calls on the database. -/
theorem Served.run (h : Served scope service history) :
    ∃ db, service.backend = .database db ∧ Database.Run service.limits scope db history := by
  induction h with
  | start limits hempty => exact ⟨_, rfl, .start hempty⟩
  | disturb isReachable fault _ ih =>
    obtain ⟨db, hbackend, hrun⟩ := ih
    cases hbackend
    exact ⟨_, rfl, .disturb isReachable fault hrun⟩
  | @answer service history now request _ ih =>
    obtain ⟨db, hbackend, hrun⟩ := ih
    obtain ⟨backend, limits⟩ := service
    obtain rfl : backend = .database db := hbackend
    rw [rowsWritten]
    -- A request makes the call that it asks for, and no other.
    cases hasked : request.asked? with
    | none =>
      rw [answer_snd_of_asked?_eq_none hasked, List.append_nil]
      exact ⟨db, rfl, hrun⟩
    | some action =>
      rw [answer_snd_of_asked? hasked]
      cases action with
      | greet | report =>
        rw [List.append_nil]
        exact ⟨db, rfl, hrun⟩
      | sync other call =>
        refine ⟨_, rfl, ?_⟩
        by_cases hother : other = scope
        · subst hother
          simp only [↓reduceIte]
          exact .call now call hrun
        · simp only [hother, ↓reduceIte, List.append_nil]
          exact .elsewhere hother now call hrun
      | onLocal other call =>
        rw [List.append_nil]
        exact ⟨_, rfl, .onLocal other call hrun⟩

/-- Timestamps cross the boundary of the database without loss, whatever requests were answered and
whenever. The calls that requests ask for bind timestamps in range only. The columns of a scope are
those of the rows last written, times not being changed by the way there and back, and a writer that
is started takes up the largest timestamp that was committed. Within its transaction the same holds
at each operation, the rows included that the transaction has written by then. -/
theorem timestamps_cross_unchanged (h : Served scope service history) {db : Database}
    (hdb : service.backend = .database db) :
    (∀ (request : Request) other call now, request.asked? = some (.sync other call) →
      RunsOnly Statement.InRange (performSync service.limits other now call)) ∧
    ColumnsOf db.tables scope history ∧
    ∀ opened started now writer, opened.tables = db.tables →
      Writer.start scope now opened = (.ok writer, started) →
      writer.clock.highWater = largestTime history ∧
      ∀ {α β : Type} {script : Script α} {operation : Operation β} {reached : Writer}
        {db' : Database} {rows : List Row},
        script.Reaches scope operation reached db' writer started rows →
        ColumnsOf db'.tables scope (history ++ rows) ∧
          reached.clock.highWater = largestTime (history ++ rows) := by
  obtain ⟨found, hfound, hrun⟩ := h.run
  obtain rfl : found = db := Backend.database.inj (hfound.symm.trans hdb)
  obtain ⟨state, hrecords, hhistory⟩ := hrun.records
  refine ⟨fun request other call now hasked => ?_, hrecords.columnsOf hhistory, ?_⟩
  · exact runsOnly_performSync service.limits other now (Request.inRange_of_asked? hasked)
  · intro opened started now writer hopened hstart
    obtain ⟨rfl, hstarted, -⟩ := Records.start_eq_ok (hopened.symm ▸ hrecords) hstart
    refine ⟨hhistory.mark_eq_largestTime, fun hreach => ?_⟩
    -- What the transaction has written goes on with the history.
    have hbefore : Records started.tables scope state :=
      (hstarted.trans hopened).symm ▸ hrecords
    have hwrote := hbefore.wrote_reaches rfl hreach
    have hafter := hhistory.append hwrote.fresh
    refine ⟨hwrote.records.columnsOf hafter, ?_⟩
    rw [hwrote.writer_eq]
    exact hafter.mark_eq_largestTime

/-- The scope of the sample requests. -/
def notesOfU1 : Scope := ⟨"notes", "u1"⟩

/-- The row with a text at a time. -/
def textRow (text : String) (time : Timestamp) : Row :=
  ⟨"a", SyncTables.sampleNote text, time, false⟩

/-- A database to which a text was written. -/
def textDatabase : Database :=
  (performSync {} notesOfU1 1000 (.put "a" (textRow "x" 1000).payload) ∅).2

/-- A write and then a look at the row, in one transaction. -/
def writeAndLook : Script (Option Row) :=
  .step (.upsert "a" (textRow "y" 0).payload none) fun _ =>
    .step (.row "a") fun found => .done found

/-- The database in the midst of that transaction. -/
def halfwayDatabase : Database :=
  (performSync {} notesOfU1 500 (.put "a" (textRow "y" 0).payload) textDatabase).2

/-- A text is written at 1000. The next writer takes up its clock from there, though the wall clock
has gone back to 500, and the row that it writes at 1001 is what it finds when it looks. -/
theorem timestamps_cross_unchanged_sample :
    ((overDatabase {}).answer 1000 textPut).2.backend = .database textDatabase ∧
    RunsOnly Statement.InRange
      (performSync {} notesOfU1 1000 (.put "a" (textRow "x" 1000).payload)) ∧
    ColumnsOf textDatabase.tables notesOfU1 [textRow "x" 1000] ∧
    largestTime [textRow "x" 1000] = 1000 ∧
    ColumnsOf halfwayDatabase.tables notesOfU1 [textRow "x" 1000, textRow "y" 1001] := by
  have hafter : ((overDatabase {}).answer 1000 textPut).2 = ⟨.database textDatabase, {}⟩ := by
    decide +kernel
  have hwritten : (overDatabase {}).rowsWritten notesOfU1 1000 textPut = [textRow "x" 1000] := by
    decide +kernel
  have hserved : Served notesOfU1 ⟨.database textDatabase, {}⟩ [textRow "x" 1000] := by
    have hstart : Served notesOfU1 (overDatabase {}) [] := .start {} rfl
    have hanswered := hstart.answer 1000 textPut
    rwa [hwritten, hafter] at hanswered
  have hasked : textPut.asked? = some (.sync notesOfU1 (.put "a" (textRow "x" 1000).payload)) := by
    decide +kernel
  have hstart : Writer.start notesOfU1 500 textDatabase =
      (.ok ⟨notesOfU1, ⟨1000⟩, 500⟩, textDatabase) :=
    Prod.ext (by decide +kernel) (by decide +kernel)
  have hwrite : (Operation.upsert "a" (textRow "y" 0).payload none).write notesOfU1
        ⟨notesOfU1, ⟨1000⟩, 500⟩ textDatabase =
      (.ok (textRow "y" 1001, ⟨notesOfU1, ⟨1001⟩, 500⟩), halfwayDatabase) :=
    Prod.ext (by decide +kernel) (by decide +kernel)
  have hreach : writeAndLook.Reaches notesOfU1 (.row "a") ⟨notesOfU1, ⟨1001⟩, 500⟩ halfwayDatabase
      ⟨notesOfU1, ⟨1000⟩, 500⟩ textDatabase [textRow "y" 1001] :=
    .later hwrite .here
  obtain ⟨hbound, hcolumns, hwriters⟩ := timestamps_cross_unchanged hserved rfl
  exact ⟨congrArg Service.backend hafter, hbound textPut _ _ _ hasked, hcolumns, by decide +kernel,
    ((hwriters _ _ _ _ rfl hstart).2 hreach).1⟩

/-- A row with a double that was written is stored, and reads back as another row. -/
theorem double_reads_back_otherwise :
    (overDatabase {}).rowsWritten notesOfU1 1000 doublePut = [massRow] ∧
    ∃ db stored, ((overDatabase {}).answer 1000 doublePut).2.backend = .database db ∧
      db.tables.syncRows.get? (.ofScope notesOfU1 "a") = some stored ∧
      stored.toRow? "a" ≠ some massRow := by
  have hasked : doublePut.asked? = some (.sync notesOfU1 (.put "a" massRow.payload)) := by
    decide +kernel
  refine ⟨by decide +kernel, (performSync {} notesOfU1 1000 (.put "a" massRow.payload) ∅).2,
    .ofRow massRow, ?_, by decide +kernel, by decide +kernel⟩
  rw [answer_snd_of_asked? hasked]
  rfl

end RowSync.Service
