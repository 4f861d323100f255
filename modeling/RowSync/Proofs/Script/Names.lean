import RowSync.Proofs.BulkWrites
import RowSync.Proofs.CommittedWrites
import RowSync.Proofs.Names

/-!
# Row Ids in Scripts

Which row ids a script names and tells (`Script.NamesValid`). Only writes of payloads create rows,
so only their ids count as named: a deletion finds its row or fails. If all row ids in a scope are
valid, the script of a call that passed its check names valid ids, from one operation to the next,
and all ids in the reply are valid (`SyncCall.namesValid_script`). The ids that a call carries are
checked before its transaction, apart from those of a replacement, which are checked within.
-/

namespace RowSync

variable {limits : Limits} {now : Timestamp} {id : RowId} {rows : List Row} {batch : List Mutation}
  {α β : Type}

/-- All row ids are valid. -/
def AllValid (ids : List RowId) : Prop := ∀ id ∈ ids, id.IsValid

theorem allValid_nil : AllValid [] := nofun

theorem allValid_singleton : AllValid [id] ↔ id.IsValid := List.forall_mem_singleton

/-- The row ids that a reply tells. -/
def SyncReply.rowIds : SyncReply → List RowId
  | .rows told => told.map Row.id
  | .row told => [told.id]
  | .report told => told.changes.map Row.id ++ told.conflicts
  | .outcome told => [told.row.id]

/-- The ids in a report are valid if those of the changes and the conflicts are. -/
theorem SyncReply.allValid_report {told : SyncReport}
    (hchanges : AllValid (told.changes.map Row.id)) (hconflicts : AllValid told.conflicts) :
    AllValid (SyncReply.report told).rowIds := by
  intro id hid
  rcases List.mem_append.1 hid with hchange | hconflict
  · exact hchanges id hchange
  · exact hconflicts id hconflict

/-! ## Decisions -/

/-- Of the rows as written, the last states are among them. -/
theorem subset_of_lastWritten (rows : List Row) : lastWritten rows ⊆ rows := by
  -- Rows are noted one after the other, so that all noted ones are old ones or among the rows.
  have hnoted (latest : OrderedMap RowId Row) :
      ∀ id row, (rows.foldl noteWritten latest).get? id = some row →
        row ∈ rows ∨ latest.get? id = some row := by
    induction rows generalizing latest with
    | nil => exact fun id row hget => .inr hget
    | cons first rest ih =>
      intro id row hget
      rcases ih _ id row hget with hrest | hfirst
      · exact .inl (List.mem_cons_of_mem first hrest)
      · have hinsert (h : (latest.insert first.id first).get? id = some row) :
            row ∈ first :: rest ∨ latest.get? id = some row := by
          rw [OrderedMap.get?_insert] at h
          split at h
          · cases h
            exact .inl List.mem_cons_self
          · exact .inr h
        rw [noteWritten] at hfirst
        split at hfirst
        · split at hfirst
          · exact .inr hfirst
          · exact hinsert hfirst
        · exact hinsert hfirst
  intro row hrow
  rw [lastWritten, mem_inChangeOrder] at hrow
  obtain ⟨id, hget⟩ := OrderedMap.mem_values_iff.1 hrow
  rcases hnoted ∅ id row hget with hmem | hnone
  · exact hmem
  · cases hnone

/-- A batch that passes the check names valid ids. -/
theorem allValid_of_checkBatch (h : limits.checkBatch batch = .ok ()) :
    AllValid (batch.map Mutation.rowId) := by
  intro id hid
  obtain ⟨mutation, hmutation, rfl⟩ := List.mem_map.1 hid
  exact checkRowId_eq_ok_iff.1 (SyncTables.checkRowId_of_checkBatch h mutation hmutation)

/-- A replacement of rows with valid ids names valid ids, as it checks those that are given. -/
theorem allValid_of_replacementBatch {live : List RowId} {given : List FlatRow}
    (hlive : AllValid live) (h : replacementBatch live given = .ok batch) :
    AllValid (batch.map Mutation.rowId) := by
  intro id hid
  rcases (ScopeState.mem_replacementBatch h).1 hid with hgiven | hkept
  · obtain ⟨_, hcheck, -⟩ := bind_eq_ok_iff.1 h
    obtain ⟨row, hrow, rfl⟩ := List.mem_map.1 hgiven
    exact checkRowId_eq_ok_iff.1 ((checkReplacement_eq_ok_iff.1 hcheck).1 row hrow)
  · exact hlive id hkept

/-! ## Scripts -/

namespace Operation

/-- Where the operation may create a row, its id is valid. -/
def NamesValid : Operation α → Prop
  | .upsert id _ _ => id.IsValid
  | _ => True

/-- The row ids that an operation tells. -/
def told (operation : Operation α) (result : α) : List RowId :=
  match operation with
  | .row _ => result.toList.map Row.id
  | .liveIds => result
  | .changesAfter _ => result.map Row.id
  | .highWater => []
  | .upsert _ _ _ | .delete _ _ => [result.id]

end Operation

namespace Script

variable {tell : α → List RowId} {tell' : β → List RowId}

/-- As long as its operations tell valid ids, the script names valid ids, and tells such in the
end. -/
def NamesValid (tell : α → List RowId) : Script α → Prop
  | done value => AllValid (tell value)
  | refuse _ => True
  | step operation next =>
    operation.NamesValid ∧
      ∀ result, AllValid (operation.told result) → (next result).NamesValid tell

theorem NamesValid.bind {script : Script α} {after : α → Script β} (h : script.NamesValid tell)
    (hafter : ∀ value, AllValid (tell value) → (after value).NamesValid tell') :
    (script >>= after).NamesValid tell' := by
  induction script with
  | done value => exact hafter value h
  | refuse cause => trivial
  | step operation next ih =>
    exact ⟨h.1, fun result hresult => ih result (h.2 result hresult)⟩

theorem namesValid_ofOperation {operation : Operation α} (h : operation.NamesValid) :
    (ofOperation operation).NamesValid operation.told :=
  ⟨h, fun _ hresult => hresult⟩

theorem namesValid_ofExcept_bind {outcome : Except SyncError α} {after : α → Script β}
    (hafter : ∀ value, outcome = .ok value → (after value).NamesValid tell') :
    (ofExcept outcome >>= after).NamesValid tell' := by
  cases outcome with
  | ok value => exact hafter value rfl
  | error cause => trivial

theorem namesValid_apply {mutation : Mutation} (h : mutation.rowId.IsValid) :
    (apply mutation).NamesValid fun row => [row.id] := by
  cases mutation with
  | upsert id payload => exact namesValid_ofOperation h
  | delete id => exact namesValid_ofOperation trivial

theorem namesValid_applyAll (h : AllValid (batch.map Mutation.rowId)) :
    (applyAll batch).NamesValid fun rows => rows.map Row.id := by
  induction batch with
  | nil => exact allValid_nil
  | cons mutation rest ih =>
    obtain ⟨hfirst, hrest⟩ := List.forall_mem_cons.1 h
    refine (namesValid_apply hfirst).bind fun row hrow => (ih hrest).bind fun rows hrows => ?_
    exact List.forall_mem_cons.2 ⟨allValid_singleton.1 hrow, hrows⟩

/-- Whatever is reported of a batch is among the rows written. -/
theorem namesValid_applyBatch (h : AllValid (batch.map Mutation.rowId)) :
    (applyBatch batch).NamesValid SyncReply.rowIds := by
  have hmark : (ofOperation .highWater).NamesValid Operation.highWater.told :=
    namesValid_ofOperation trivial
  refine (namesValid_applyAll h).bind fun rows hrows => hmark.bind fun mark _ => ?_
  exact SyncReply.allValid_report
    (fun id hid => hrows id (List.map_subset Row.id (subset_of_lastWritten rows) hid)) allValid_nil

theorem namesValid_edit {claim : Timestamp} {write absent : Script Row}
    (hwrite : write.NamesValid fun row => [row.id])
    (habsent : absent.NamesValid fun row => [row.id]) :
    (edit id claim write absent).NamesValid SyncReply.rowIds := by
  have hrow : (ofOperation (.row id)).NamesValid (Operation.row id).told :=
    namesValid_ofOperation trivial
  refine hrow.bind fun found hfound => ?_
  -- An edit that is taken tells the row written, and one that is dropped the row that was found.
  cases found with
  | none => exact habsent.bind fun row hvalid => hvalid
  | some row =>
    dsimp only
    split
    · exact hwrite.bind fun row hvalid => hvalid
    · exact hfound

end Script

/-- The script of a call that passed its check names valid ids, and all ids in its reply are
valid. -/
theorem SyncCall.namesValid_script {call : SyncCall} {script : Script SyncReply}
    (hcheck : call.check limits now = .ok ()) (hscript : call.script? = some script) :
    script.NamesValid SyncReply.rowIds := by
  cases call with
  | rows | row | snapshot | changesSince => cases hscript
  | put id payload =>
    cases hscript
    have hwrite : (Script.ofOperation (.upsert id payload none)).NamesValid
        (Operation.upsert id payload none).told :=
      Script.namesValid_ofOperation (checkRowId_eq_ok_iff.1 hcheck)
    exact hwrite.bind fun row hrow => hrow
  | delete id =>
    cases hscript
    have hdelete : (Script.ofOperation (.delete id none)).NamesValid
        (Operation.delete id none).told :=
      Script.namesValid_ofOperation trivial
    exact hdelete.bind fun row hrow => hrow
  | sync base batch =>
    cases hscript
    have hbatch : AllValid (batch.map Mutation.rowId) := allValid_of_checkBatch hcheck
    have hread : (Script.ofOperation (.changesAfter base)).NamesValid
        (Operation.changesAfter base).told :=
      Script.namesValid_ofOperation trivial
    refine hread.bind fun changes hchanges => ?_
    -- Mutations that are applied are in the batch, and conflicts are rows that changed.
    have haccepted : AllValid ((splitBatch changes batch).accepted.map Mutation.rowId) := by
      rw [accepted_splitBatch]
      exact fun id hid => hbatch id (List.map_subset _ (List.filter_subset_self _) hid)
    refine (Script.namesValid_applyAll haccepted).bind fun _ _ => hread.bind fun after hafter => ?_
    exact SyncReply.allValid_report hafter
      fun id hid => hchanges id (mem_conflicts_iff.1 hid).2
  | push batch =>
    cases hscript
    exact Script.namesValid_applyBatch (allValid_of_checkBatch hcheck)
  | replace given =>
    cases hscript
    have hlive : (Script.ofOperation .liveIds).NamesValid Operation.liveIds.told :=
      Script.namesValid_ofOperation trivial
    refine hlive.bind fun live hvalid => Script.namesValid_ofExcept_bind fun batch hbatch => ?_
    exact Script.namesValid_applyBatch (allValid_of_replacementBatch hvalid hbatch)
  | putIfRecent id payload claim =>
    cases hscript
    obtain ⟨_, hid, -⟩ := bind_eq_ok_iff.1 hcheck
    have hwrite : (Script.ofOperation (.upsert id payload (some claim))).NamesValid
        fun row => [row.id] :=
      Script.namesValid_ofOperation (checkRowId_eq_ok_iff.1 hid)
    exact Script.namesValid_edit hwrite hwrite
  | deleteIfRecent id claim =>
    cases hscript
    have hdelete : (Script.ofOperation (.delete id (some claim))).NamesValid fun row => [row.id] :=
      Script.namesValid_ofOperation trivial
    exact Script.namesValid_edit hdelete trivial

end RowSync
