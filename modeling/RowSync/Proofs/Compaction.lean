import RowSync.Proofs.CommittedWrites
import RowSync.Proofs.TableInvariant

/-!
# The Change Log as a Compaction

What a scope keeps of all writes that were ever committed to it: of each row its last write, with
the payload that the row was given last (`rowLeft?`). The change log lists the rows of these last
writes in the order of writing, from any time on, and the live rows are those whose last write is no
deletion (`SyncTables.change_log_compacts`). One write more keeps this (`ScopeState.Reflects.put`),
and hence every run of calls does, by whichever of the calls the writes were committed.
-/

namespace RowSync

/-! ## The last write of each row -/

namespace Write

/-- Whether the row was deleted. -/
def isDelete (write : Write) : Bool := write.mutation.isDelete

/-- The payload that the row was given, unless it was deleted. -/
def payload? (write : Write) : Option Payload :=
  match write.mutation with
  | .upsert _ payload => some payload
  | .delete _ => none

end Write

/-- The last write of a row. -/
def lastWrite? (writes : List Write) (id : RowId) : Option Write :=
  (writes.filter fun write => write.rowId = id).getLast?

/-- The payload that a row was given last. -/
def lastPayload? (writes : List Write) (id : RowId) : Option Payload :=
  ((writes.filter fun write => write.rowId = id).filterMap Write.payload?).getLast?

/-- The row that writes leave: it has the payload that it was given last and the timestamp of its
last write, and is a tombstone if that was a deletion. -/
def rowLeft? (writes : List Write) (id : RowId) : Option Row := do
  let last ← lastWrite? writes id
  let payload ← lastPayload? writes id
  return ⟨id, payload, last.time, last.isDelete⟩

/-- The writes without those after which their row was written again. -/
def latest (writes : List Write) : List Write :=
  writes.filter fun write => lastWrite? writes write.rowId = some write

section LastWrites

variable {writes : List Write} {write : Write} {id : RowId} {row : Row}

theorem lastWrite?_concat (writes : List Write) (write : Write) (id : RowId) :
    lastWrite? (writes ++ [write]) id =
      if write.rowId = id then some write else lastWrite? writes id := by
  by_cases h : write.rowId = id <;> simp [lastWrite?, h]

theorem lastPayload?_concat (writes : List Write) (write : Write) (id : RowId) :
    lastPayload? (writes ++ [write]) id =
      if write.rowId = id then write.payload?.or (lastPayload? writes id)
      else lastPayload? writes id := by
  by_cases h : write.rowId = id
  · cases hpayload : write.payload? <;> simp [lastPayload?, h, hpayload]
  · simp [lastPayload?, h]

theorem rowLeft?_eq_some_iff : rowLeft? writes id = some row ↔
    ∃ last payload, lastWrite? writes id = some last ∧ lastPayload? writes id = some payload ∧
      row = ⟨id, payload, last.time, last.isDelete⟩ := by
  simp only [rowLeft?, bind, pure, Option.bind_eq_some_iff, Option.some.injEq, eq_comm (a := row)]
  grind

theorem mem_of_lastWrite? (h : lastWrite? writes id = some write) :
    write ∈ writes ∧ write.rowId = id := by
  simpa using List.mem_of_getLast? h

theorem mem_latest_iff :
    write ∈ latest writes ↔ write ∈ writes ∧ lastWrite? writes write.rowId = some write := by
  rw [latest, List.mem_filter, decide_eq_true_eq]

/-- The row that the last write of it leaves has the timestamp of the write. -/
theorem modifiedAt_of_mem_latest (hwrite : write ∈ latest writes)
    (hrow : rowLeft? writes write.rowId = some row) :
    row.id = write.rowId ∧ row.modifiedAt = write.time := by
  obtain ⟨last, payload, hlast, -, rfl⟩ := rowLeft?_eq_some_iff.1 hrow
  rw [(mem_latest_iff.1 hwrite).2] at hlast
  cases hlast
  exact ⟨rfl, rfl⟩

/-- A row that is left is left by a last write. -/
theorem exists_mem_latest (h : rowLeft? writes id = some row) :
    ∃ write ∈ latest writes, write.rowId = id := by
  obtain ⟨last, payload, hlast, -, -⟩ := rowLeft?_eq_some_iff.1 h
  obtain ⟨hmem, hid⟩ := mem_of_lastWrite? hlast
  exact ⟨last, mem_latest_iff.2 ⟨hmem, hid ▸ hlast⟩, hid⟩

end LastWrites

namespace ScopeState

variable {state : ScopeState} {writes : List Write} {mutation : Mutation}
  {mutations : List Mutation} {row : Row} {rows : List Row} {id : RowId} {time : Timestamp}

/-- The state has of each row what the writes leave, of which the timestamps increase. -/
structure Reflects (state : ScopeState) (writes : List Write) : Prop where
  /-- The timestamps increase. -/
  ordered : writes.Pairwise fun a b => a.time < b.time
  /-- No write is ahead of the mark. -/
  le_mark : ∀ write ∈ writes, write.time ≤ state.mark
  /-- A row that was written is there. -/
  exists_get? : ∀ write ∈ writes, ∃ row, state.get? write.rowId = some row
  /-- Rows are as the writes leave them. -/
  get?_eq : ∀ id, state.get? id = rowLeft? writes id

theorem reflects_initial : initial.Reflects [] where
  ordered := .nil
  le_mark := by simp
  exists_get? := by simp
  get?_eq _ := rfl

/-- A row that a write makes has the payload that it was given last, with this write. -/
theorem Reflects.content_eq (h : state.Reflects writes) (write : Write)
    (hcontent : some row.content =
      write.mutation.effect ((state.get? write.rowId).map Row.content)) :
    write.payload?.or (lastPayload? writes write.rowId) = some row.payload ∧
      row.deleted = write.isDelete := by
  obtain ⟨mutation, time⟩ := write
  cases mutation with
  | upsert id payload =>
    obtain ⟨rfl, hdeleted⟩ := Prod.mk.inj (Option.some.inj hcontent)
    exact ⟨rfl, hdeleted⟩
  | delete id =>
    -- A tombstone keeps the payload of the row, which is the one that it was given last.
    obtain ⟨content, hfound, hkept⟩ := Option.map_eq_some_iff.1 hcontent.symm
    obtain ⟨found, hget, rfl⟩ := Option.map_eq_some_iff.1 hfound
    obtain ⟨hpayload, hdeleted⟩ := Prod.mk.inj hkept
    rw [h.get?_eq, rowLeft?_eq_some_iff] at hget
    obtain ⟨last, payload, -, hlast, rfl⟩ := hget
    exact ⟨hlast.trans (congrArg some hpayload), hdeleted.symm⟩

/-- The row that is left after one more write is the one that the write makes. -/
theorem Reflects.rowLeft?_concat (h : state.Reflects writes) (hid : row.id = mutation.rowId)
    (hcontent : some row.content = mutation.effect ((state.get? mutation.rowId).map Row.content)) :
    rowLeft? (writes ++ [⟨mutation, row.modifiedAt⟩]) row.id = some row := by
  have hself : (⟨mutation, row.modifiedAt⟩ : Write).rowId = row.id := hid.symm
  obtain ⟨hpayload, hdeleted⟩ := h.content_eq ⟨mutation, row.modifiedAt⟩ hcontent
  rw [rowLeft?_eq_some_iff, lastWrite?_concat, lastPayload?_concat, if_pos hself, if_pos hself]
  exact ⟨_, _, rfl, hself ▸ hpayload, by rw [← hdeleted]⟩

/-- One more write keeps the state in line. -/
theorem Reflects.put (h : state.Reflects writes) (hlt : state.mark < row.modifiedAt)
    (hid : row.id = mutation.rowId)
    (hcontent : some row.content = mutation.effect ((state.get? mutation.rowId).map Row.content)) :
    (state.put row).Reflects (writes ++ [⟨mutation, row.modifiedAt⟩]) where
  ordered := by
    refine List.pairwise_append.2 ⟨h.ordered, List.pairwise_singleton _ _, ?_⟩
    intro write hwrite other hother
    obtain rfl := List.mem_singleton.1 hother
    exact UInt64.lt_of_le_of_lt (h.le_mark write hwrite) hlt
  le_mark write hwrite := by
    rcases List.mem_append.1 hwrite with hwrite | hwrite
    · exact UInt64.le_trans (h.le_mark write hwrite) (UInt64.le_of_lt hlt)
    · obtain rfl := List.mem_singleton.1 hwrite
      exact UInt64.le_refl _
  exists_get? write hwrite := by
    rw [get?_put]
    split
    · exact ⟨row, rfl⟩
    · rename_i hother
      rcases List.mem_append.1 hwrite with hwrite | hwrite
      · exact h.exists_get? write hwrite
      · obtain rfl := List.mem_singleton.1 hwrite
        exact absurd hid.symm hother
  get?_eq id := by
    rw [get?_put]
    by_cases hrow : id = row.id
    · rw [if_pos hrow, hrow, h.rowLeft?_concat hid hcontent]
    · -- The writes of another row are the same as before.
      have hother : (⟨mutation, row.modifiedAt⟩ : Write).rowId ≠ id := fun heq =>
        hrow (heq.symm.trans hid.symm)
      rw [if_neg hrow, h.get?_eq, rowLeft?, rowLeft?, lastWrite?_concat, lastPayload?_concat,
        if_neg hother, if_neg hother]

/-- Rows that record mutations keep the state in line when they are put. -/
theorem Reflects.putAll (h : state.Reflects writes) (hfresh : state.Fresh rows)
    (hrecords : state.Records mutations rows) :
    (state.putAll rows).Reflects
      (writes ++ List.zipWith Write.mk mutations (rows.map Row.modifiedAt)) := by
  induction hrecords generalizing writes with
  | nil =>
    rw [List.zipWith_nil_left, List.append_nil]
    exact h
  | cons hid hcontent _ ih =>
    obtain ⟨hlt, -, hrest⟩ := fresh_cons.1 hfresh
    rw [putAll_cons, List.map_cons, List.zipWith_cons_cons, List.append_cons]
    exact ih (h.put hlt hid hcontent) hrest

/-- The change log lists the rows of the last writes, in the order of writing. -/
theorem Reflects.changesAfter_eq (h : state.Reflects writes) (hsound : state.Sound)
    (time : Timestamp) :
    (state.changesAfter time).map some =
      ((latest writes).filter fun write => time < write.time).map fun write =>
        rowLeft? writes write.rowId := by
  have hkept {write : Write} : write ∈ (latest writes).filter (fun write => time < write.time) ↔
      write ∈ latest writes ∧ time < write.time := by
    rw [List.mem_filter, decide_eq_true_eq]
  have hordered : ((latest writes).filter fun write => time < write.time).Pairwise
      fun a b => a.time < b.time :=
    List.Pairwise.filter _ (List.Pairwise.filter _ h.ordered)
  -- The rows that these writes leave are in order, and they are those of the change log.
  have hrows : ((latest writes).filter fun write => time < write.time).filterMap
      (fun write => rowLeft? writes write.rowId) = state.changesAfter time := by
    refine hsound.eq_changesAfter (List.pairwise_filterMap.2 ?_) fun row => ?_
    · refine hordered.imp_of_mem fun {a b} ha hb hlt row hrow row' hrow' => ?_
      rw [(modifiedAt_of_mem_latest (hkept.1 ha).1 hrow).2,
        (modifiedAt_of_mem_latest (hkept.1 hb).1 hrow').2]
      exact hlt
    · rw [List.mem_filterMap, h.get?_eq]
      constructor
      · rintro ⟨write, hwrite, hrow⟩
        obtain ⟨hlatest, hlt⟩ := hkept.1 hwrite
        obtain ⟨hid, htime⟩ := modifiedAt_of_mem_latest hlatest hrow
        exact ⟨hid ▸ hrow, htime ▸ hlt⟩
      · rintro ⟨hrow, hlt⟩
        obtain ⟨write, hlatest, hid⟩ := exists_mem_latest hrow
        rw [← hid] at hrow
        have htime := (modifiedAt_of_mem_latest hlatest hrow).2
        exact ⟨write, hkept.2 ⟨hlatest, htime ▸ hlt⟩, hrow⟩
  -- None of these writes leaves no row.
  rw [← hrows, List.map_filterMap, ← List.filterMap_eq_map]
  refine List.filterMap_congr fun write hwrite => ?_
  obtain ⟨row, hget⟩ := h.exists_get? write (mem_latest_iff.1 (hkept.1 hwrite).1).1
  rw [Function.comp_apply, ← h.get?_eq, hget]
  rfl

end ScopeState

namespace SyncTables

variable {limits : Limits} {store : Store} {scope : Scope} {now : Timestamp} {call : SyncCall}
  {writes : List Write} {row : Row} {id : RowId}

/-- The rows that are got are those that are listed as live, if these have valid ids. -/
theorem get_eq_ok_iff (h : store.Sound)
    (hvalid : ∀ id ∈ (store.liveRows scope).map Row.id, checkRowId id = .ok ()) :
    store.get scope id = .ok row ↔ row ∈ store.liveRows scope ∧ row.id = id := by
  have hlive : row ∈ store.liveRows scope ↔
      (store.table scope).get? row.id = some row ∧ row.deleted = false :=
    (h scope).state.mem_liveRows_iff
  have hfound : (store.table scope).getLive? row.id = some row ↔ row ∈ store.liveRows scope := by
    rw [hlive, Table.getLive?, Option.filter_eq_some_iff, Row.isLive, Bool.not_eq_true']
  constructor
  · intro hget
    obtain ⟨_, -, hget⟩ := bind_eq_ok_iff.1 hget
    cases hrow : (store.table scope).getLive? id with
    | none =>
      rw [hrow] at hget
      cases hget
    | some found =>
      rw [hrow] at hget
      cases hget
      have hid : row.id = id := (h scope).state.keyed (Option.filter_eq_some_iff.1 hrow).1
      exact ⟨hfound.1 (hid ▸ hrow), hid⟩
  · rintro ⟨hmem, rfl⟩
    rw [Store.get, hvalid row.id (List.mem_map_of_mem hmem), hfound.2 hmem]
    rfl

/-- The live rows have valid ids if all rows have that were written. -/
theorem checkRowId_of_liveRows (h : store.Sound) (hreflects : (store.state scope).Reflects writes)
    (hvalid : ∀ write ∈ writes, checkRowId write.rowId = .ok ()) :
    ∀ id ∈ (store.liveRows scope).map Row.id, checkRowId id = .ok () := by
  intro id hid
  obtain ⟨row, hrow, rfl⟩ := List.mem_map.1 hid
  have hget : (store.state scope).get? row.id = some row :=
    ((h scope).state.mem_liveRows_iff.1 hrow).1
  obtain ⟨write, hwrite, hid⟩ := exists_mem_latest ((hreflects.get?_eq row.id).symm.trans hget)
  rw [← hid]
  exact hvalid write (mem_latest_iff.1 hwrite).1

/-- The state of a scope has what the writes leave that were committed to it, all of them of rows
with valid ids. -/
theorem Chronicle.reflects (hrun : Chronicle limits scope store writes) :
    (store.state scope).Reflects writes ∧ ∀ write ∈ writes, checkRowId write.rowId = .ok () := by
  induction hrun with
  | start => exact ⟨ScopeState.reflects_initial, by simp⟩
  | @call store writes now call hrun ih =>
    obtain ⟨hreflects, hvalid⟩ := ih
    have hsound := hrun.sound
    obtain ⟨hfresh, hstate⟩ := state_perform hsound call
    rw [hstate]
    cases hok : (perform limits store scope now call).1 with
    | error e =>
      rw [rowsWritten_of_error hsound hok, committed, hok, List.append_nil]
      exact ⟨hreflects, hvalid⟩
    | ok reply =>
      constructor
      · rw [committed, hok]
        exact hreflects.putAll hfresh (records_rowsWritten hsound hok)
      · intro write hwrite
        rcases List.mem_append.1 hwrite with hwrite | hwrite
        · exact hvalid write hwrite
        · have hmutation := List.mem_map_of_mem (f := Write.mutation) hwrite
          rw [map_mutation_committed hsound hok] at hmutation
          have hlive := checkRowId_of_liveRows hsound hreflects hvalid
          exact checkRowId_of_planned hsound hok hlive _ hmutation
  | elsewhere hother now call hrun ih =>
    rw [state_perform_of_ne hrun.sound hother call]
    exact ih

/-- The change log compacts the writes that were committed to the scope. Their timestamps increase.
The changes after a time are the rows that the last writes since then leave, in the order of
writing, where the row that writes leave has the payload that it was given last and is a tombstone
if its last write was a deletion. The live ones of all rows are listed in the order of their ids,
and these are the rows that are got. What a next call adds to the writes are the mutations that it
commits, at the timestamps of the rows that it writes. -/
theorem change_log_compacts (hrun : Chronicle limits scope store writes) :
    writes.Pairwise (fun a b => a.time < b.time) ∧
      (∀ time, (changesSince store scope time).changes.map some =
        ((latest writes).filter fun write => time < write.time).map fun write =>
          rowLeft? writes write.rowId) ∧
      (store.liveRows scope).Perm ((changesSince store scope 0).changes.filter Row.isLive) ∧
      ((store.liveRows scope).map Row.id).Pairwise (· < ·) ∧
      (∀ id row, store.get scope id = .ok row ↔ row ∈ store.liveRows scope ∧ row.id = id) ∧
      ∀ now call reply, (perform limits store scope now call).1 = .ok reply →
        (committed limits store scope now call).map Write.mutation =
            planned store scope call reply ∧
          (committed limits store scope now call).map Write.time =
            (rowsWritten limits store scope now call).map Row.modifiedAt := by
  have hsound : store.Sound := hrun.sound
  obtain ⟨hreflects, hvalid⟩ := hrun.reflects
  refine ⟨hreflects.ordered, fun time => ?_, ?_, (hsound scope).state.pairwise_liveRows,
    fun id row => ?_, fun now call reply hok =>
      ⟨map_mutation_committed hsound hok, map_time_committed hsound limits scope now call⟩⟩
  · rw [← hreflects.changesAfter_eq (hsound scope).state, changesSince, (hsound scope).rowsAfter_eq]
    rfl
  · exact ((hsound scope).rowsAfter_zero_perm.symm).filter _
  · exact get_eq_ok_iff hsound (checkRowId_of_liveRows hsound hreflects hvalid)

/-- Write a row and delete it again, and in between delete a row and write another one. -/
def interleavedBatch : List Mutation :=
  [.upsert "c" (sampleNote "draft"), .delete "a", .upsert "b" (sampleNote "again"), .delete "c"]

/-- The writes to the sample store and those of the batch. -/
def sampleWrites : List Write :=
  [⟨.upsert "a" (sampleNote "first"), 1000⟩, ⟨.upsert "b" (sampleNote "other"), 2000⟩,
    ⟨.upsert "c" (sampleNote "draft"), 2001⟩, ⟨.delete "a", 2002⟩,
    ⟨.upsert "b" (sampleNote "again"), 2003⟩, ⟨.delete "c", 2004⟩]

/-- Of the writes of the batch and those before it three are the last ones of their rows. -/
theorem change_log_compacts_sample :
    let store := (perform {} sampleStore sampleScope 500 (.push interleavedBatch)).2
    (changesSince store sampleScope 2001).changes.map some =
        [rowLeft? sampleWrites "a", rowLeft? sampleWrites "b", rowLeft? sampleWrites "c"] ∧
      rowLeft? sampleWrites "c" = some ⟨"c", sampleNote "draft", 2004, true⟩ := by
  have hrun : Chronicle {} sampleScope (perform {} sampleStore sampleScope 500 _).2 sampleWrites :=
    .call 500 (.push interleavedBatch) (.call 2000 (.put "b" (sampleNote "other"))
      (.call 1000 (.put "a" (sampleNote "first")) .start))
  exact ⟨(change_log_compacts hrun).2.1 2001, by decide +kernel⟩

end SyncTables

end RowSync
