import RowSync.Proofs.Batches
import RowSync.Proofs.BulkWrites
import RowSync.Proofs.ByteOrder
import RowSync.Proofs.StagedReads
import RowSync.Proofs.StoreScopes

/-!
# Replacements

A replacement makes the given rows the only live ones of a scope. It is refused if there are too
many of them, or if an id is not valid or is repeated, and it fails if there are fewer timestamps
left than rows to write; otherwise it is carried out (`ScopeState.exists_error_replace_iff`). What
it does then to every row of the scope, and in which order, is `Replaced`. For stores both are
stated together in `SyncTables.replace_outcome`.
-/

namespace RowSync

variable {limits : Limits} {now : Timestamp} {given : List FlatRow} {batch : List Mutation}
  {mutation : Mutation}

/-! ## Checks -/

/-- A replacement passes the check of its ids just if none is not valid and none is repeated. -/
theorem checkReplacement_nil_eq_ok_iff : checkReplacement [] given = .ok () ↔
    (¬∃ row ∈ given, checkRowId row.id ≠ .ok ()) ∧ (given.map FlatRow.id).Nodup := by
  rw [checkReplacement_eq_ok_iff]
  simp

/-- A batch may delete rows that are known, and what follows is checked as before. -/
theorem checkPresent_delete_append {isKnown : RowId → Bool} {ids : List RowId}
    (h : ∀ id ∈ ids, isKnown id) (rest : List Mutation) :
    checkPresent isKnown (ids.map .delete ++ rest) = checkPresent isKnown rest := by
  induction ids with
  | nil => rfl
  | cons id others ih =>
    obtain ⟨hid, hothers⟩ := List.forall_mem_cons.1 h
    rw [List.map_cons, List.cons_append, checkPresent, if_pos hid, ih hothers]

/-- A batch that deletes nothing may be applied whatever is known. -/
theorem checkPresent_upserts (isKnown : RowId → Bool) (given : List FlatRow) :
    checkPresent isKnown (given.map fun row => .upsert row.id row.fields) = .ok () := by
  induction given generalizing isKnown with
  | nil => rfl
  | cons row rest ih => exact ih _

/-! ## Batches with distinct rows -/

/-- Of a batch whose mutations name different rows only one names the row of each. -/
theorem filter_rowId_eq_singleton (hnodup : (batch.map Mutation.rowId).Nodup)
    (hmem : mutation ∈ batch) :
    (batch.filter fun other => other.rowId = mutation.rowId) = [mutation] := by
  induction batch with
  | nil => simp at hmem
  | cons first rest ih =>
    obtain ⟨hfirst, hrest⟩ := List.nodup_cons.1 hnodup
    rcases List.mem_cons.1 hmem with rfl | hlater
    · have hnone : (rest.filter fun other => other.rowId = mutation.rowId) = [] := by
        refine List.filter_eq_nil_iff.2 fun other hother hsame => hfirst ?_
        exact List.mem_map.2 ⟨other, hother, of_decide_eq_true hsame⟩
      rw [List.filter_cons, if_pos (decide_eq_true rfl), hnone]
    · have hne : first.rowId ≠ mutation.rowId := fun hsame =>
        hfirst (hsame ▸ List.mem_map_of_mem hlater)
      rw [List.filter_cons, if_neg (by simpa using hne), ih hrest hlater]

namespace ScopeState

variable {state state' : ScopeState} {report : SyncReport} {rows : List Row}

/-- A batch whose mutations name different rows leaves each of them with the content that its own
mutation makes of it. -/
theorem content_applyAll_of_mem (hsound : state.Sound)
    (happly : state.applyAll now batch = .ok (rows, state'))
    (hnodup : (batch.map Mutation.rowId).Nodup) (hmem : mutation ∈ batch) :
    (state'.get? mutation.rowId).map Row.content =
      mutation.effect ((state.get? mutation.rowId).map Row.content) := by
  rw [content_applyAll hsound happly, filter_rowId_eq_singleton hnodup hmem]
  rfl

/-! ## The batch of a replacement -/

/-- The ids of the live rows that a replacement does not name, in their order. -/
def dropped (state : ScopeState) (given : List FlatRow) : List RowId :=
  (state.liveRows.map Row.id).filter (· ∉ given.map FlatRow.id)

/-- The mutations by which a replacement is carried out. -/
def replacing (state : ScopeState) (given : List FlatRow) : List Mutation :=
  (state.dropped given).map .delete ++ given.map fun row => .upsert row.id row.fields

theorem mem_dropped_iff {id : RowId} :
    id ∈ state.dropped given ↔ id ∈ state.liveRows.map Row.id ∧ id ∉ given.map FlatRow.id := by
  rw [dropped, List.mem_filter, decide_eq_true_eq]

theorem map_rowId_replacing (state : ScopeState) (given : List FlatRow) :
    (state.replacing given).map Mutation.rowId =
      state.dropped given ++ given.map FlatRow.id := by
  rw [replacing, List.map_append, List.map_map, List.map_map]
  exact congrArg (· ++ _) (List.map_id _)

theorem length_replacing (state : ScopeState) (given : List FlatRow) :
    (state.replacing given).length = (state.dropped given).length + given.length := by
  rw [replacing, List.length_append, List.length_map, List.length_map]

/-- The ids of the rows that are dropped ascend. -/
theorem Sound.pairwise_dropped (h : state.Sound) (given : List FlatRow) :
    (state.dropped given).Pairwise (· < ·) :=
  h.pairwise_liveRows.filter _

/-- The mutations of a replacement of different rows name different rows. -/
theorem Sound.nodup_replacing (h : state.Sound) (hnodup : (given.map FlatRow.id).Nodup) :
    ((state.replacing given).map Mutation.rowId).Nodup := by
  rw [map_rowId_replacing]
  refine List.Nodup.append (h.nodup_liveRows.filter _) hnodup fun id hdropped hgiven => ?_
  exact (mem_dropped_iff.1 hdropped).2 hgiven

/-- A replacement deletes only rows that are there. -/
theorem Sound.checkPresent_replacing (h : state.Sound) (given : List FlatRow) :
    checkPresent state.isKnown (state.replacing given) = .ok () := by
  rw [replacing, checkPresent_delete_append, checkPresent_upserts]
  intro id hid
  obtain ⟨row, hrow, rfl⟩ := List.mem_map.1 (mem_dropped_iff.1 hid).1
  rw [isKnown, (h.mem_liveRows_iff.1 hrow).1]
  rfl

/-- A replacement that is not refused applies its batch. -/
theorem replace_eq (hsound : state.Sound) (hlength : ¬limits.maxBatch < given.length)
    (hcheck : checkReplacement [] given = .ok ()) :
    state.replace limits now given = state.applyBatch now (state.replacing given) := by
  -- The dropped ids ascend as they are listed, so sorting leaves them as they are.
  have hsorted : (state.dropped given).mergeSort (· ≤ ·) = state.dropped given :=
    (List.mergeSort_perm _ _).eq_of_pairwise (fun _ _ _ _ => le_antisymm)
      (pairwise_mergeSort_rowId _) ((hsound.pairwise_dropped given).imp le_of_lt)
  have hbatch : replacementBatch (state.liveRows.map Row.id) given =
      .ok (state.replacing given) := by
    rw [replacementBatch, hcheck, replacing, ← hsorted]
    rfl
  rw [replace, Limits.checkLength, if_neg hlength, hbatch]
  rfl

/-- A replacement fails just if too many rows are given, an id is not valid or is repeated, or there
are fewer timestamps left than rows to drop and to write. -/
theorem exists_error_replace_iff (hsound : state.Sound) :
    (∃ e, state.replace limits now given = .error e) ↔
      limits.maxBatch < given.length ∨ (∃ row ∈ given, checkRowId row.id ≠ .ok ()) ∨
        ¬(given.map FlatRow.id).Nodup ∨
        state.timesLeft now < (state.dropped given).length + given.length := by
  by_cases hlength : limits.maxBatch < given.length
  · refine iff_of_true ⟨.batchLength given.length limits.maxBatch, ?_⟩ (.inl hlength)
    rw [replace, Limits.checkLength, if_pos hlength]
    rfl
  · cases hcheck : checkReplacement [] given with
    | error e =>
      refine iff_of_true ⟨e, ?_⟩ (.inr ?_)
      · rw [replace, Limits.checkLength, if_neg hlength, replacementBatch, hcheck]
        rfl
      · -- The ids were refused, so one is not valid or is repeated.
        have hrefused : ¬checkReplacement [] given = .ok () := fun hpassed => by
          rw [hcheck] at hpassed
          cases hpassed
        rw [checkReplacement_nil_eq_ok_iff, not_and_or, not_not] at hrefused
        exact hrefused.imp_right .inl
    | ok _ =>
      obtain ⟨hids, hnodup⟩ := checkReplacement_nil_eq_ok_iff.1 hcheck
      have happly : (∃ e, state.applyBatch now (state.replacing given) = .error e) ↔
          ∃ e, state.applyAll now (state.replacing given) = .error e := by
        simp only [applyBatch_eq_map, map_eq_error_iff]
      rw [replace_eq hsound hlength hcheck, happly,
        exists_error_applyAll_iff hsound now (hsound.checkPresent_replacing given),
        length_replacing]
      simp only [hlength, hids, hnodup, not_true_eq_false, false_or]

end ScopeState

/-! ## What a replacement does -/

/-- What a replacement that succeeds does to the state of a scope. -/
structure Replaced (before after : ScopeState) (given : List FlatRow) : Prop where
  /-- The live rows are the given ones, with the given fields as their payloads. -/
  live : (after.liveRows.map fun row => FlatRow.mk row.id row.payload).Perm given
  /-- A row that was live and is not given is a tombstone that kept its payload. -/
  buried : ∀ row ∈ before.liveRows, row.id ∉ given.map FlatRow.id →
    (after.get? row.id).map Row.content = some (row.payload, true)
  /-- All other rows that are not given are as they were, and none is new. -/
  untouched : ∀ id, id ∉ before.liveRows.map Row.id → id ∉ given.map FlatRow.id →
    after.get? id = before.get? id
  /-- Rows are written with increasing timestamps ahead of the mark, first the ones that are dropped
  and then the given ones in their order, and are stored as they are written. -/
  written : ∃ written : List Row,
    written.map Row.id = before.dropped given ++ given.map FlatRow.id ∧ LogOrdered written ∧
      ∀ row ∈ written, before.mark < row.modifiedAt ∧ after.get? row.id = some row
  /-- The dropped rows are written in the order of the bytes of their ids. -/
  ordered : (before.dropped given).Pairwise fun a b => utf8Bytes a < utf8Bytes b

namespace ScopeState

variable {state state' : ScopeState} {report : SyncReport} {rows : List Row}

/-- A replacement that succeeds has applied its batch, of rows that are all different. -/
theorem replace_eq_ok (hsound : state.Sound)
    (h : state.replace limits now given = .ok (report, state')) :
    (given.map FlatRow.id).Nodup ∧
      ∃ rows, state.applyAll now (state.replacing given) = .ok (rows, state') := by
  have hno : ¬∃ e, state.replace limits now given = .error e := by
    rintro ⟨e, he⟩
    rw [h] at he
    cases he
  rw [exists_error_replace_iff hsound, not_or, not_or, not_or, not_not] at hno
  obtain ⟨hlength, hids, hnodup, -⟩ := hno
  rw [replace_eq hsound hlength (checkReplacement_nil_eq_ok_iff.2 ⟨hids, hnodup⟩)] at h
  obtain ⟨⟨rows, last⟩, happly, h⟩ := bind_eq_ok_iff.1 h
  cases h
  exact ⟨hnodup, rows, happly⟩

section Applied

variable (hsound : state.Sound) (hnodup : (given.map FlatRow.id).Nodup)
  (happly : state.applyAll now (state.replacing given) = .ok (rows, state'))

include hsound hnodup happly

/-- A given row is left live, with the given fields. -/
theorem content_of_given {row : FlatRow} (hrow : row ∈ given) :
    (state'.get? row.id).map Row.content = some (row.fields, false) := by
  have hmem : Mutation.upsert row.id row.fields ∈ state.replacing given :=
    List.mem_append_right _ (List.mem_map.2 ⟨row, hrow, rfl⟩)
  exact content_applyAll_of_mem hsound happly (hsound.nodup_replacing hnodup) hmem

/-- A row that is dropped is left as a tombstone with its payload. -/
theorem content_of_dropped {row : Row} (hrow : row ∈ state.liveRows)
    (hnot : row.id ∉ given.map FlatRow.id) :
    (state'.get? row.id).map Row.content = some (row.payload, true) := by
  have hdropped : row.id ∈ state.dropped given :=
    mem_dropped_iff.2 ⟨List.mem_map_of_mem hrow, hnot⟩
  have hmem : Mutation.delete row.id ∈ state.replacing given :=
    List.mem_append_left _ (List.mem_map_of_mem hdropped)
  have hcontent := content_applyAll_of_mem hsound happly (hsound.nodup_replacing hnodup) hmem
  rw [Mutation.rowId, (hsound.mem_liveRows_iff.1 hrow).1] at hcontent
  exact hcontent

omit hnodup in
/-- A row that is neither given nor dropped is left as it was. -/
theorem get?_of_not_replaced {id : RowId} (hlive : id ∉ state.liveRows.map Row.id)
    (hnot : id ∉ given.map FlatRow.id) : state'.get? id = state.get? id := by
  obtain ⟨hids, rfl, -⟩ := applyAll_eq_ok hsound happly
  refine get?_putAll_of_notMem fun hmem => ?_
  rw [hids, map_rowId_replacing, List.mem_append, mem_dropped_iff] at hmem
  exact hmem.elim (fun hdropped => hlive hdropped.1) hnot

/-- A row that is live after a replacement is a given one. -/
theorem mem_given_of_live (hsound' : state'.Sound) {row : Row} (hrow : row ∈ state'.liveRows) :
    FlatRow.mk row.id row.payload ∈ given := by
  obtain ⟨hget, hdeleted⟩ := hsound'.mem_liveRows_iff.1 hrow
  by_cases hmem : row.id ∈ given.map FlatRow.id
  · obtain ⟨flat, hflat, hid⟩ := List.mem_map.1 hmem
    have hcontent := content_of_given hsound hnodup happly hflat
    rw [hid, hget] at hcontent
    have hpayload : row.payload = flat.fields := congrArg Prod.fst (Option.some.inj hcontent)
    rwa [← hid, hpayload]
  · -- A row that is not given is live only if it was, and then it is dropped.
    exfalso
    by_cases hlive : row.id ∈ state.liveRows.map Row.id
    · obtain ⟨before, hbefore, hid⟩ := List.mem_map.1 hlive
      have hcontent := content_of_dropped hsound hnodup happly hbefore (hid ▸ hmem)
      rw [hid, hget] at hcontent
      have hdead : row.deleted = true := congrArg Prod.snd (Option.some.inj hcontent)
      rw [hdeleted] at hdead
      cases hdead
    · rw [get?_of_not_replaced hsound happly hlive hmem] at hget
      exact hlive (List.mem_map_of_mem (hsound.mem_liveRows_iff.2 ⟨hget, hdeleted⟩))

/-- The rows that are live after a replacement are the given ones. -/
theorem liveRows_perm_given (hsound' : state'.Sound) :
    (state'.liveRows.map fun row => FlatRow.mk row.id row.payload).Perm given := by
  have hlive : (state'.liveRows.map fun row => FlatRow.mk row.id row.payload).Nodup := by
    refine List.Nodup.of_map FlatRow.id ?_
    rw [List.map_map]
    exact hsound'.nodup_liveRows
  -- Neither list repeats a row, so it is enough that they have the same members.
  refine (List.perm_ext_iff_of_nodup hlive (hnodup.of_map _)).2 fun flat => ?_
  rw [List.mem_map]
  constructor
  · rintro ⟨row, hrow, rfl⟩
    exact mem_given_of_live hsound hnodup happly hsound' hrow
  · intro hflat
    obtain ⟨row, hget, hcontent⟩ :=
      Option.map_eq_some_iff.1 (content_of_given hsound hnodup happly hflat)
    have hid : row.id = flat.id := hsound'.keyed hget
    obtain ⟨hpayload, hdeleted⟩ := Prod.ext_iff.1 hcontent
    refine ⟨row, hsound'.mem_liveRows_iff.2 ⟨hid ▸ hget, hdeleted⟩, ?_⟩
    rw [hid]
    exact congrArg (FlatRow.mk flat.id) hpayload

end Applied

/-- A replacement that succeeds does as described. -/
theorem replaced_of_replace (hsound : state.Sound)
    (h : state.replace limits now given = .ok (report, state')) :
    Replaced state state' given := by
  obtain ⟨hnodup, rows, happly⟩ := replace_eq_ok hsound h
  obtain ⟨hids, hstate, hfresh⟩ := applyAll_eq_ok hsound happly
  have hdistinct : (rows.map Row.id).Nodup := hids ▸ hsound.nodup_replacing hnodup
  rw [map_rowId_replacing] at hids
  exact
    { live := liveRows_perm_given hsound hnodup happly (hstate ▸ hsound.putAll hfresh)
      buried := fun _ hrow hnot => content_of_dropped hsound hnodup happly hrow hnot
      untouched := fun _ hlive hnot => get?_of_not_replaced hsound happly hlive hnot
      written := by
        refine ⟨rows, hids, hfresh.ordered, fun row hrow => ⟨hfresh.ahead row hrow, ?_⟩⟩
        -- Each row is written once, so what is found of it is what was written.
        obtain ⟨last, hlast, hid, hget⟩ :=
          exists_get?_putAll state (List.mem_map_of_mem (f := Row.id) hrow)
        have hsame : last = row := List.inj_on_of_nodup_map hdistinct hlast hrow hid
        rw [hstate, hget, hsame]
      ordered := (hsound.pairwise_dropped given).imp lt_iff_utf8Bytes_lt.1 }

end ScopeState

namespace SyncTables

variable {store : Store}

/-- A replacement fails, and leaves the store as it was, just if too many rows are given, an id is
not valid or is repeated, or there are fewer timestamps left than rows to drop and to write.
Otherwise it makes the given rows the only live ones of its scope, as described. -/
theorem replace_outcome (hreach : Reachable limits store) (scope : Scope) (now : Timestamp)
    (given : List FlatRow) :
    let before := store.state scope
    let replaced := replace limits store scope now given
    ((∃ e, replaced.1 = .error e) ↔
      limits.maxBatch < given.length ∨ (∃ row ∈ given, checkRowId row.id ≠ .ok ()) ∨
        ¬(given.map FlatRow.id).Nodup ∨
        before.timesLeft now < (before.dropped given).length + given.length) ∧
      (∀ e, replaced.1 = .error e → replaced.2 = store) ∧
      ∀ report, replaced.1 = .ok report → Replaced before (replaced.2.state scope) given := by
  intro before replaced
  have hstore : store.Sound := sound_of_reachable hreach
  have hpopulated : store.Populated := RunsTo.populated hreach Store.populated_empty
  have hsound : before.Sound := (hstore scope).state
  have hfollows : store.Follows scope replaced (before.replace limits now given) :=
    follows_replace hstore given
  have hatomic : store.AllOrNothing replaced :=
    hpopulated.allOrNothing_guarded (hpopulated.allOrNothing_transact scope now _)
  refine ⟨?_, hatomic.restored, fun report hreport =>
    ScopeState.replaced_of_replace hsound (hfollows.eq_ok hreport)⟩
  rw [← ScopeState.exists_error_replace_iff hsound, hfollows.result]
  simp only [map_eq_error_iff]

/-- A new row, and another payload for the first sample row. -/
def replacingRows : List FlatRow := [⟨"c", sampleNote "new"⟩, ⟨"a", sampleNote "edited"⟩]

/-- Replaced by these rows the sample store loses its second row, which stays as a tombstone. Rows
that are given twice are refused. -/
theorem replace_outcome_sample :
    let replaced := (replace {} sampleStore sampleScope 500 replacingRows).2
    ((replaced.liveRows sampleScope).map fun row => FlatRow.mk row.id row.payload).Perm
        replacingRows ∧
      ((replaced.state sampleScope).get? "b").map Row.content = some (sampleNote "other", true) ∧
      (replace {} sampleStore sampleScope 500 (replacingRows ++ replacingRows)).2 =
        sampleStore := by
  intro replaced
  obtain ⟨hfails, -, hdone⟩ := replace_outcome reachable_sampleStore sampleScope 500 replacingRows
  obtain ⟨hfails', hrestored, -⟩ :=
    replace_outcome reachable_sampleStore sampleScope 500 (replacingRows ++ replacingRows)
  obtain ⟨e, he⟩ := hfails'.2 (by decide +kernel)
  cases htold : (replace {} sampleStore sampleScope 500 replacingRows).1 with
  | error e => exact absurd (hfails.1 ⟨e, htold⟩) (by decide +kernel)
  | ok report =>
    have hreplaced := hdone report htold
    have hlive : (⟨"b", sampleNote "other", 2000, false⟩ : Row) ∈
        (sampleStore.state sampleScope).liveRows := by decide +kernel
    exact ⟨hreplaced.live, hreplaced.buried _ hlive (by decide +kernel), hrestored e he⟩

end SyncTables

end RowSync
