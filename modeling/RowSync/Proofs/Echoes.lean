import RowSync.Proofs.Backends
import RowSync.Proofs.ClaimedEdits
import RowSync.Proofs.Exchange

/-!
# Writes Told by an Exchange

An exchange reads the changes after its baseline once more after it has written, so that it tells
its own writes as far as they are ahead of the baseline. A baseline that is not ahead of the scope
is behind all of them. Other baselines are let in as well: a client may come from another service,
or a store may have been lost. Then a write is told just if the timestamp that it was assigned is
ahead of the baseline, and if it is not told, it is made again when the exchange is
(`SyncTables.writes_told_iff`). Timestamps are assigned one after the other from the wall clock or
from the successor of the mark (`ScopeState.times_applyAll`), so that this is known beforehand.
-/

namespace RowSync

namespace ScopeState

variable {limits : Limits} {now now' base : Timestamp} {state state' before after last : ScopeState}
  {batch earlier later : List Mutation} {write : Mutation} {rows : List Row} {row : Row}
  {id : RowId} {report report' : SyncReport}

/-- The rows of a batch are written at consecutive timestamps. The first one is what the wall clock
shows, as far as it is in range, or the successor of the mark if that is greater. -/
theorem times_applyAll (hsound : state.Sound)
    (h : state.applyAll now batch = .ok (rows, state')) {firsts rest : List Row}
    (hrows : rows = firsts ++ row :: rest) :
    row.modifiedAt.toNat =
      max (min now.toNat maxTimestamp.toNat) (state.mark.toNat + 1) + firsts.length := by
  -- The timestamp of the first row is the mark after it, and not behind the wall clock.
  induction batch generalizing state rows firsts with
  | nil =>
    cases h
    simp at hrows
  | cons mutation others ih =>
    obtain ⟨⟨head, middle⟩, hfirst, h⟩ := bind_eq_ok_iff.1 h
    obtain ⟨⟨tail, ended⟩, hrest, h⟩ := bind_eq_ok_iff.1 h
    cases h
    obtain ⟨-, rfl, hlt, hle, -⟩ := apply_eq_ok hsound hfirst
    have htime := toNat_of_nextTime (nextTime_of_apply hfirst)
    cases firsts with
    | nil =>
      obtain ⟨rfl, -⟩ := List.cons.inj hrows
      exact htime
    | cons first firsts =>
      obtain ⟨-, htail⟩ := List.cons.inj hrows
      rw [ih (hsound.put hlt hle) hrest htail, mark_put, htime, List.length_cons]
      omega

/-- A row that is not written again after it was put is found as it was put. -/
theorem get?_putAll_append {firsts rest : List Row} (state : ScopeState)
    (h : row.id ∉ rest.map Row.id) :
    (state.putAll (firsts ++ row :: rest)).get? row.id = some row := by
  rw [putAll_append, putAll_cons, get?_putAll_of_notMem h, get?_put, if_pos rfl]

/-- An exchange that succeeds puts a fresh row for every mutation whose row did not change after the
baseline. -/
theorem written_of_sync (hsound : before.Sound)
    (h : before.sync limits now base batch = .ok (report, after)) :
    ∃ rows, before.applyAll now (batch.filter fun mutation =>
        mutation.rowId ∉ (before.changesAfter base).map Row.id) = .ok (rows, after) ∧
      rows.map Row.id = (batch.filter fun mutation =>
        mutation.rowId ∉ (before.changesAfter base).map Row.id).map Mutation.rowId ∧
      after = before.putAll rows ∧ before.Fresh rows := by
  obtain ⟨_, -, h⟩ := bind_eq_ok_iff.1 h
  obtain ⟨⟨rows, ended⟩, happly, h⟩ := bind_eq_ok_iff.1 h
  cases h
  rw [accepted_splitBatch] at happly
  exact ⟨rows, happly, applyAll_eq_ok hsound happly⟩

/-- A row that is found changed after a time just if it was written after it. -/
theorem Sound.mem_ids_changesAfter_iff (h : state.Sound) (hget : state.get? id = some row) :
    id ∈ (state.changesAfter base).map Row.id ↔ base < row.modifiedAt := by
  rw [List.mem_map]
  constructor
  · rintro ⟨changed, hchanged, hid⟩
    rw [h.mem_changesAfter_iff, hid, hget] at hchanged
    cases hchanged.1
    exact hchanged.2
  · intro htime
    have hid : row.id = id := h.keyed hget
    subst hid
    exact ⟨row, h.mem_changesAfter_iff.2 ⟨hget, htime⟩, rfl⟩

/-- The row of the last write to it in an exchange, and whether it is told. -/
theorem told_iff_of_sync (hsound : before.Sound)
    (h : before.sync limits now base batch = .ok (report, after))
    (hwrite : (batch.filter fun mutation =>
      mutation.rowId ∉ (before.changesAfter base).map Row.id) = earlier ++ write :: later)
    (hlast : write.rowId ∉ later.map Mutation.rowId) :
    ∃ row, after.get? write.rowId = some row ∧
      row.modifiedAt.toNat =
        max (min now.toNat maxTimestamp.toNat) (before.mark.toNat + 1) + earlier.length ∧
      (row ∈ report.changes ↔ base < row.modifiedAt) := by
  have hafter : after.Sound := hsound.of_growsTo (growsTo_of_sync hsound h)
  obtain ⟨rows, happly, hids, rfl, -⟩ := written_of_sync hsound h
  -- The rows are divided as the mutations are.
  rw [hwrite, List.map_append, List.map_cons] at hids
  obtain ⟨firsts, others, hrows, hfirsts, hothers⟩ := List.map_eq_append_iff.1 hids
  obtain ⟨row, rest, rfl, hid, hrest⟩ := List.map_eq_cons_iff.1 hothers
  have hlength : firsts.length = earlier.length := by
    rw [← List.length_map Row.id, hfirsts, List.length_map]
  have hget : (before.putAll rows).get? write.rowId = some row := by
    rw [← hrest, ← hid] at hlast
    rw [hrows, ← hid]
    exact get?_putAll_append before hlast
  refine ⟨row, hget, ?_, ?_⟩
  · rw [times_applyAll hsound happly hrows, hlength]
  · rw [← hid] at hget
    rw [report_sync h]
    exact hafter.mem_changesAfter_iff.trans (and_iff_right hget)

/-- In an exchange of a batch that names a row which is there, the row is a conflict just if it is
ahead of the baseline, and it stays as it is just if it is. -/
theorem kept_iff_of_sync (hsound : after.Sound) (hget : after.get? id = some row)
    (hid : id ∈ batch.map Mutation.rowId)
    (h : after.sync limits now base batch = .ok (report, last)) :
    (id ∈ report.conflicts ↔ base < row.modifiedAt) ∧
      (last.get? id = some row ↔ base < row.modifiedAt) := by
  have hchanged : id ∈ (after.changesAfter base).map Row.id ↔ base < row.modifiedAt :=
    hsound.mem_ids_changesAfter_iff hget
  constructor
  · rw [report_sync h, ← hchanged]
    exact mem_conflicts_iff.trans (and_iff_right hid)
  · obtain ⟨rows, -, hids, rfl, hfresh⟩ := written_of_sync hsound h
    -- The row is written just if the exchange accepts its mutations.
    have hwritten : id ∈ rows.map Row.id ↔ ¬base < row.modifiedAt := by
      rw [hids, ← hchanged]
      simp only [List.mem_map, List.mem_filter, decide_eq_true_eq] at hid ⊢
      grind
    rw [← not_iff_not, ← hwritten]
    constructor
    · intro hnot
      by_contra hmem
      exact hnot ((get?_putAll_of_notMem hmem).trans hget)
    · intro hmem hsame
      -- A row that was written is ahead of the mark, and this one is not.
      obtain ⟨written, hrow, -, hfound⟩ := exists_get?_putAll after hmem
      rw [hsame] at hfound
      cases hfound
      exact absurd (hsound.le_mark hget) (UInt64.not_le.2 (hfresh.ahead row hrow))

end ScopeState

namespace SyncTables

variable {limits : Limits} {store : Store} {scope : Scope} {now base : Timestamp}
  {batch earlier later : List Mutation} {write : Mutation} {report : SyncReport}

/-- An exchange from any baseline whatever stores each row that it writes at a timestamp that
follows from the wall clock, the mark and the place of its last write among those that are accepted,
and tells the row just if that is ahead of the baseline. When the exchange is made again, and the
scope was not written in between, the row is a conflict just if it was told, and it stays as it is
just if it was told. A database that holds the state of the scope tells the same and holds the same
state afterwards, as long as it keeps what is written. -/
theorem writes_told_iff (hreach : Reachable limits store)
    (hsync : (sync limits store scope now base batch).1 = .ok report)
    (hwrite : (batch.filter fun mutation =>
      mutation.rowId ∉ ((store.state scope).changesAfter base).map Row.id) =
        earlier ++ write :: later)
    (hlast : write.rowId ∉ later.map Mutation.rowId) :
    (∃ row, ((sync limits store scope now base batch).2.state scope).get? write.rowId = some row ∧
      row.modifiedAt.toNat = max (min now.toNat maxTimestamp.toNat)
        ((store.state scope).mark.toNat + 1) + earlier.length ∧
      (row ∈ report.changes ↔ base < row.modifiedAt) ∧
      ∀ again now' report', RunsTo limits (sync limits store scope now base batch).2 again →
        again.state scope = (sync limits store scope now base batch).2.state scope →
        (sync limits again scope now' base batch).1 = .ok report' →
        (write.rowId ∈ report'.conflicts ↔ row ∈ report.changes) ∧
          (((sync limits again scope now' base batch).2.state scope).get? write.rowId = some row ↔
            row ∈ report.changes)) ∧
    ∀ db : Database, db.Holds scope (store.state scope) → scope.IsKept →
      (∀ mutation ∈ batch, mutation.IsKept) → base ≤ maxTimestamp →
      (Database.sync limits scope now base batch db).1 = .ok report ∧
        (Database.sync limits scope now base batch db).2.Holds scope
          ((sync limits store scope now base batch).2.state scope) := by
  have hstore : store.Sound := sound_of_reachable hreach
  have hfollows : store.Follows scope (sync limits store scope now base batch) _ :=
    follows_sync hstore base batch
  have hstate := sync_of_result hstore hsync
  constructor
  · obtain ⟨row, hget, htime, htold⟩ :=
      ScopeState.told_iff_of_sync (hstore scope).state hstate hwrite hlast
    refine ⟨row, hget, htime, htold, ?_⟩
    intro again now' report' hrun hquiet hagain
    have hsound : again.Sound := hrun.sound hfollows.sound
    -- The mutation is one of the batch, and its row is still as it was stored.
    have hmem : write ∈ batch :=
      List.mem_of_mem_filter (hwrite ▸ List.mem_append_right earlier List.mem_cons_self)
    rw [← hquiet] at hget
    obtain ⟨hconflict, hkept⟩ := ScopeState.kept_iff_of_sync (hsound scope).state hget
      (List.mem_map_of_mem hmem) (sync_of_result hsound hagain)
    exact ⟨hconflict.trans htold.symm, hkept.trans htold.symm⟩
  · intro db hholds hscope hkept hbase
    have hanswers : Database.Answers scope db (store.state scope)
        (Database.sync limits scope now base batch db) _ :=
      hholds.answers_sync hscope hbase hkept
    have hresult := hanswers.result
    have hafter := hanswers.holds
    rw [hstate] at hresult hafter
    exact ⟨hresult, hafter⟩

/-- A batch that writes two rows. -/
def newRows : List Mutation :=
  [.upsert "a" (sampleNote "first"), .upsert "b" (sampleNote "other")]

/-- What is told of the batch if the baseline is the time of the first row. -/
def newRowsReport : SyncReport := ⟨1001, [⟨"b", sampleNote "other", 1001, false⟩], []⟩

/-- The batch is exchanged when the wall clock shows the baseline: the first row is stored at the
baseline and is not told, the second one is ahead of it and is. When the exchange is made again, the
second row is a conflict and the first one is not. A database tells the same. -/
theorem writes_told_iff_sample :
    (∃ row, row.modifiedAt.toNat = 1000 ∧
      (row ∈ newRowsReport.changes ↔ (1000 : Timestamp) < row.modifiedAt) ∧
      ("a" ∈ ["b"] ↔ row ∈ newRowsReport.changes)) ∧
    (∃ row, row.modifiedAt.toNat = 1001 ∧
      (row ∈ newRowsReport.changes ↔ (1000 : Timestamp) < row.modifiedAt) ∧
      ("b" ∈ ["b"] ↔ row ∈ newRowsReport.changes)) ∧
    (Database.sync {} sampleScope 1000 1000 newRows ∅).1 = .ok newRowsReport := by
  have hsync : (sync {} ∅ sampleScope 1000 1000 newRows).1 = .ok newRowsReport := by
    decide +kernel
  have hagain : (sync {} (sync {} ∅ sampleScope 1000 1000 newRows).2 sampleScope 3000 1000
      newRows).1 = .ok ⟨3000, [⟨"b", sampleNote "other", 1001, false⟩,
        ⟨"a", sampleNote "first", 3000, false⟩], ["b"]⟩ := by decide +kernel
  have haccepted : (newRows.filter fun mutation => mutation.rowId ∉
      (((∅ : Store).state sampleScope).changesAfter 1000).map Row.id) =
        [] ++ .upsert "a" (sampleNote "first") :: [.upsert "b" (sampleNote "other")] := by
    decide +kernel
  have haccepted' : (newRows.filter fun mutation => mutation.rowId ∉
      (((∅ : Store).state sampleScope).changesAfter 1000).map Row.id) =
        [.upsert "a" (sampleNote "first")] ++ .upsert "b" (sampleNote "other") :: [] := haccepted
  obtain ⟨⟨first, -, htime, htold, hfirst⟩, hdatabase⟩ :=
    writes_told_iff .refl hsync haccepted (by decide)
  obtain ⟨⟨other, -, htime', htold', hother⟩, -⟩ :=
    writes_told_iff .refl hsync haccepted' (by decide)
  exact ⟨⟨first, htime, htold, (hfirst _ 3000 _ .refl rfl hagain).1⟩,
    ⟨other, htime', htold', (hother _ 3000 _ .refl rfl hagain).1⟩,
    (hdatabase ∅ (Backend.holds_empty sampleScope) (by decide) (by decide +kernel)
      (by decide)).1⟩

/-- A row that is written from a baseline ahead of the scope and of the wall clock is not told, and
the same exchange writes it again, at another timestamp and without a conflict. -/
theorem write_behind_baseline :
    Reachable {} ∅ ∧ (5000 : Timestamp) ≤ maxTimestamp ∧
    (sync {} ∅ sampleScope 1000 5000 [.upsert "a" (sampleNote "mine")]).1 =
      .ok ⟨5000, [], []⟩ ∧
    ((sync {} ∅ sampleScope 1000 5000 [.upsert "a" (sampleNote "mine")]).2.state sampleScope).get?
      "a" = some ⟨"a", sampleNote "mine", 1000, false⟩ ∧
    (sync {} (sync {} ∅ sampleScope 1000 5000 [.upsert "a" (sampleNote "mine")]).2 sampleScope 1000
      5000 [.upsert "a" (sampleNote "mine")]).1 = .ok ⟨5000, [], []⟩ ∧
    ((sync {} (sync {} ∅ sampleScope 1000 5000 [.upsert "a" (sampleNote "mine")]).2 sampleScope 1000
      5000 [.upsert "a" (sampleNote "mine")]).2.state sampleScope).get? "a" =
      some ⟨"a", sampleNote "mine", 1001, false⟩ :=
  ⟨.refl, by decide, by decide +kernel, by decide +kernel, by decide +kernel, by decide +kernel⟩

end SyncTables

end RowSync
