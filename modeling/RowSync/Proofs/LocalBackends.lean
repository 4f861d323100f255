import RowSync.Proofs.Database.LocalRows
import RowSync.Proofs.LocalStores

/-!
# Local Tables as Plain Maps

Local tables, over stores as over a database, are measured by maps from ids to fields. Over stores
all proper calls are answered as by the maps. Over a database they are if the database keeps what
they name and write, and a row is told as it was put only if it is kept
(`local_tables_plain`). A payload with a double whose shortest text does not read back is not kept.
-/

namespace RowSync

/-- Proper calls on local tables, however many and of whatever scopes, are answered in memory as by
the maps, whatever the wall clock shows as long as it leaves room for one timestamp for each call;
and then each table has as many rows as its map has entries. A database answers the same if it
keeps what the calls name and write. Whatever it holds, a row that is put and then asked for is told
as by the maps just if the database keeps it. Flat rows that are decoded are proper: none has a
field under the key of the id. -/
theorem local_tables_plain (acts : List LocalAct) (hproper : ∀ act ∈ acts, act.call.IsProper) :
    ((∀ act ∈ acts, act.now.toNat + acts.length ≤ maxTimestamp.toNat) →
      (runAll LocalTables.step ∅ acts).1 = (runAll PlainTables.step PlainTables.empty acts).1 ∧
      ∀ scope, LocalTables.count (runAll LocalTables.step ∅ acts).2 scope =
        ((runAll PlainTables.step PlainTables.empty acts).2 scope).size) ∧
    ((∀ act ∈ acts, act.scope.IsKept ∧ act.call.IsKept) →
      (runAll Database.localStep ∅ acts).1 = (runAll PlainTables.step PlainTables.empty acts).1) ∧
    (∀ (db : Database) (tables : PlainTables) (scope : Scope) (given : FlatRow)
      (now later : Timestamp), db.Healthy → checkRowId given.id = .ok () →
      ((runAll Database.localStep db [⟨now, scope, .put given⟩, ⟨later, scope, .row given.id⟩]).1 =
        (runAll PlainTables.step tables [⟨now, scope, .put given⟩, ⟨later, scope, .row given.id⟩]).1
        ↔ scope.IsKept ∧ NulFree given.id ∧ given.fields.IsKept)) ∧
    ∀ (outline : Json.Outline) (row : FlatRow), FlatRow.decode outline = .ok row →
      row.fields.IsIdFree := by
  refine ⟨fun hclock => ?_, fun hkept => ?_, ?_, fun outline row => FlatRow.isIdFree_of_decode⟩
  · obtain ⟨hanswers, hmirrors⟩ := LocalTables.mirrors_runAll hproper hclock
    exact ⟨hanswers, fun scope => (hmirrors scope).totalCount_eq⟩
  · exact Database.holdsPlain_empty.answers_runAll fun act hact =>
      ⟨hproper act hact, hkept act hact⟩
  · intro db tables scope given now later hhealthy hvalid
    -- By the maps the row is told as it was put, whatever was there before.
    have hmaps : (runAll PlainTables.step tables
        [⟨now, scope, .put given⟩, ⟨later, scope, .row given.id⟩]).1 =
          [.ok (.row given), .ok (.row given)] := by
      simp only [runAll, PlainTables.step, PlainTables.perform, PlainTables.row,
        Function.update_self, OrderedMap.get?_insert, ↓reduceIte]
      rfl
    rw [hmaps]
    exact Database.put_row_told_iff hhealthy hvalid scope now later

/-- A flat row with a text. -/
def flatNote (id : RowId) (text : String) : FlatRow := ⟨id, .ofMembers [("text", .str text)]⟩

/-- A row is written, removed, asked for and written again while the wall clock goes back, and a row
of the same id is written in another scope. -/
def sampleActs : List LocalAct :=
  [⟨9000, ⟨"prefs", "ann"⟩, .put (flatNote "a" "first")⟩,
    ⟨8000, ⟨"prefs", "bob"⟩, .put (flatNote "a" "elsewhere")⟩,
    ⟨7000, ⟨"prefs", "ann"⟩, .delete "a"⟩, ⟨6000, ⟨"prefs", "ann"⟩, .row "a"⟩,
    ⟨5000, ⟨"prefs", "ann"⟩, .put (flatNote "a" "again")⟩, ⟨4000, ⟨"prefs", "ann"⟩, .rows⟩]

/-- The answers to the sample calls. -/
def sampleAnswers : List (Except CallError LocalReply) :=
  [.ok (.row (flatNote "a" "first")), .ok (.row (flatNote "a" "elsewhere")), .ok .done,
    .error (.refused (.rowNotFound "a")), .ok (.row (flatNote "a" "again")),
    .ok (.rows [flatNote "a" "again"])]

/-- A row with a double that does not read back from its shortest text. -/
def doubleRow : FlatRow := ⟨"a", ⟨[("mass", .num (.double ⟨false, 4157519176128740748⟩))], rfl⟩⟩

/-- The row with the double is put and then asked for. -/
def doubleActs : List LocalAct :=
  [⟨1000, ⟨"prefs", "ann"⟩, .put doubleRow⟩, ⟨1000, ⟨"prefs", "ann"⟩, .row "a"⟩]

/-- The sample calls are answered alike in memory and by a database; the row with the double is told
as by the maps just if it is kept. -/
theorem local_tables_plain_sample :
    (runAll LocalTables.step ∅ sampleActs).1 = sampleAnswers ∧
    LocalTables.count (runAll LocalTables.step ∅ sampleActs).2 ⟨"prefs", "ann"⟩ = 1 ∧
    (runAll Database.localStep ∅ sampleActs).1 = sampleAnswers ∧
    ((runAll Database.localStep ∅ doubleActs).1 =
      (runAll PlainTables.step PlainTables.empty doubleActs).1 ↔ doubleRow.fields.IsKept) := by
  have hmaps : (runAll PlainTables.step PlainTables.empty sampleActs).1 = sampleAnswers := by rfl
  obtain ⟨hmemory, hdatabase, htold, -⟩ := local_tables_plain sampleActs (by decide +kernel)
  obtain ⟨hanswers, hcount⟩ := hmemory (by decide +kernel)
  refine ⟨hanswers.trans hmaps, (hcount ⟨"prefs", "ann"⟩).trans rfl,
    (hdatabase (by decide +kernel)).trans hmaps, ?_⟩
  have hiff := htold ∅ PlainTables.empty ⟨"prefs", "ann"⟩ doubleRow 1000 1000 ⟨rfl, rfl⟩ (by decide)
  exact hiff.trans ⟨fun h => h.2.2, fun h => ⟨by decide, by decide, h⟩⟩

/-- A database does not answer all proper calls as the maps do: the double that is put is told back
as its neighbour. -/
theorem double_row_told_apart :
    (∀ act ∈ doubleActs, act.call.IsProper) ∧
    (∀ act ∈ doubleActs, act.now.toNat + doubleActs.length ≤ maxTimestamp.toNat) ∧
    (runAll Database.localStep ∅ doubleActs).1 ≠
      (runAll PlainTables.step PlainTables.empty doubleActs).1 := by
  refine ⟨by decide +kernel, by decide +kernel, ?_⟩
  decide +kernel

end RowSync
