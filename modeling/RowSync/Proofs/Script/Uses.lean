import RowSync.Proofs.Script.Basic

/-!
# Operations that Scripts Use

Which operations a script may come to, whatever those before return (`Script.Uses`). The script of a
call reads the changes after the baseline of the call only, and writes at the claimed edit time of
the call or at the time of the wall clock (`SyncCall.uses_script`).
-/

namespace RowSync

variable {α β : Type}

namespace Script

variable {allowed allowed' : ∀ {β : Type}, Operation β → Prop}

/-- Whatever its operations return, the script uses allowed ones only. -/
def Uses (allowed : ∀ {β : Type}, Operation β → Prop) : Script α → Prop
  | done _ | refuse _ => True
  | step operation next => allowed operation ∧ ∀ result, (next result).Uses allowed

theorem Uses.imp {script : Script α} (h : script.Uses allowed)
    (himp : ∀ {β : Type} {operation : Operation β}, allowed operation → allowed' operation) :
    script.Uses allowed' := by
  induction script with
  | done | refuse => trivial
  | step operation next ih => exact ⟨himp h.1, fun result => ih result (h.2 result)⟩

theorem Uses.bind {script : Script α} {after : α → Script β} (h : script.Uses allowed)
    (hafter : ∀ value, (after value).Uses allowed) : (script >>= after).Uses allowed := by
  induction script with
  | done value => exact hafter value
  | refuse cause => trivial
  | step operation next ih => exact ⟨h.1, fun result => ih result (h.2 result)⟩

theorem uses_ofOperation {operation : Operation α} (h : allowed operation) :
    (ofOperation operation).Uses allowed :=
  ⟨h, fun _ => trivial⟩

theorem uses_ofExcept (outcome : Except SyncError α) : (ofExcept outcome).Uses allowed := by
  cases outcome <;> trivial

/-- Mutations are applied by writes without a claimed edit time. -/
theorem uses_applyAll (hupsert : ∀ id payload, allowed (.upsert id payload none))
    (hdelete : ∀ id, allowed (.delete id none)) (batch : List Mutation) :
    (applyAll batch).Uses allowed := by
  induction batch with
  | nil => trivial
  | cons mutation rest ih =>
    have hfirst : (apply mutation).Uses allowed := by
      cases mutation with
      | upsert id payload => exact uses_ofOperation (hupsert id payload)
      | delete id => exact uses_ofOperation (hdelete id)
    exact hfirst.bind fun _ => ih.bind fun _ => trivial

theorem uses_applyBatch (hupsert : ∀ id payload, allowed (.upsert id payload none))
    (hdelete : ∀ id, allowed (.delete id none)) (hmark : allowed .highWater)
    (batch : List Mutation) : (applyBatch batch).Uses allowed :=
  (uses_applyAll hupsert hdelete batch).bind fun _ => (uses_ofOperation hmark).bind fun _ => trivial

theorem uses_edit {id : RowId} {claim : Timestamp} {write absent : Script Row}
    (hrow : allowed (.row id)) (hwrite : write.Uses allowed) (habsent : absent.Uses allowed) :
    (edit id claim write absent).Uses allowed := by
  refine (uses_ofOperation hrow).bind fun found => ?_
  -- Whether the write is done depends on the row that is found.
  cases found with
  | none => exact habsent.bind fun _ => trivial
  | some row =>
    dsimp only
    split
    · exact hwrite.bind fun _ => trivial
    · trivial

end Script

namespace SyncCall

/-- The claimed edit time that a call carries. -/
def claim? : SyncCall → Option Timestamp
  | .putIfRecent _ _ claim | .deleteIfRecent _ claim => some claim
  | _ => none

/-- The baseline that a call names. -/
def base? : SyncCall → Option Timestamp
  | .changesSince base | .sync base _ => some base
  | _ => none

/-- What a call may do in its transaction: read changes after its own baseline, and write at its own
claimed edit time. -/
def MayUse (call : SyncCall) {β : Type} : Operation β → Prop
  | .changesAfter time => call.base? = some time
  | .upsert _ _ claim | .delete _ claim => claim = call.claim?
  | .row _ | .liveIds | .highWater => True

/-- The script of a call uses what the call may use. -/
theorem uses_script {call : SyncCall} {script : Script SyncReply} (h : call.script? = some script) :
    script.Uses call.MayUse := by
  cases call with
  | rows | row | snapshot | changesSince => cases h
  | put | delete =>
    cases h
    exact (Script.uses_ofOperation rfl).bind fun _ => trivial
  | sync base batch =>
    cases h
    have hread : (Script.ofOperation (.changesAfter base)).Uses (sync base batch).MayUse :=
      Script.uses_ofOperation rfl
    exact hread.bind fun _ => (Script.uses_applyAll (fun _ _ => rfl) (fun _ => rfl) _).bind fun _ =>
      hread.bind fun _ => trivial
  | push batch =>
    cases h
    exact Script.uses_applyBatch (fun _ _ => rfl) (fun _ => rfl) trivial batch
  | replace rows =>
    cases h
    have hlive : (Script.ofOperation .liveIds).Uses (replace rows).MayUse :=
      Script.uses_ofOperation trivial
    exact hlive.bind fun _ => (Script.uses_ofExcept _).bind fun _ =>
      Script.uses_applyBatch (fun _ _ => rfl) (fun _ => rfl) trivial _
  | putIfRecent id payload claim =>
    cases h
    exact Script.uses_edit trivial (Script.uses_ofOperation rfl) (Script.uses_ofOperation rfl)
  | deleteIfRecent id claim =>
    cases h
    exact Script.uses_edit trivial (Script.uses_ofOperation rfl) trivial

end SyncCall

end RowSync
