import RowSync.Proofs.Batches
import RowSync.Proofs.Script.Uses

/-!
# Plans

What a call on a sync table is going to write, decided before anything is written
(`ScopeState.plan`): a call that reads plans nothing, and neither does an edit that is too old or an
exchange of which all mutations give way. A call is refused, or it applies its plan to the state
(`ScopeState.map_snd_perform`), so that whether it fails and what it leaves is known from the plan.
-/

namespace RowSync

/-- The time from which a call takes its timestamps, unless the mark is ahead: the claimed edit time
if it carries one, or what the wall clock shows. -/
def SyncCall.seed (now : Timestamp) (call : SyncCall) : Timestamp := call.claim?.getD now

namespace ScopeState

variable {limits : Limits} {now seed : Timestamp} {state state' : ScopeState} {call : SyncCall}
  {batch : List Mutation} {reply : SyncReply} {e : SyncError}

/-- The plan of a change with a claimed edit time: none if the row was written after that time. -/
def planEdit (limits : Limits) (now : Timestamp) (state : ScopeState) (claim : Timestamp)
    (mutation : Mutation) : Except SyncError (List Mutation) := do
  checkRowId mutation.rowId
  limits.checkClaim claim now
  return if mayReplace (state.get? mutation.rowId) claim then [mutation] else []

/-- The mutations that a call is going to apply, or why it is refused before any is applied. -/
def plan (limits : Limits) (now : Timestamp) (state : ScopeState) :
    SyncCall → Except SyncError (List Mutation)
  | .rows | .snapshot | .changesSince _ => return []
  | .row id => do
    let _ ← state.getLive id
    return []
  | .put id payload => do
    checkRowId id
    return [.upsert id payload]
  | .delete id => do
    checkRowId id
    return [.delete id]
  | .sync base batch => do
    limits.checkBatch batch
    return (splitBatch (state.changesAfter base) batch).accepted
  | .push batch => do
    limits.checkBatch batch
    return batch
  | .replace rows => do
    limits.checkLength rows.length
    replacementBatch (state.liveRows.map Row.id) rows
  | .putIfRecent id payload claim => state.planEdit limits now claim (.upsert id payload)
  | .deleteIfRecent id claim => state.planEdit limits now claim (.delete id)

/-! ## Calls and their plans -/

theorem map_bind {α β γ : Type} (first : Except SyncError α) (next : α → Except SyncError β)
    (f : β → γ) : (first >>= next).map f = first >>= fun value => (next value).map f := by
  cases first <;> rfl

theorem map_snd_writing {α : Type} (told : α → SyncReply)
    (outcome : Except SyncError (α × ScopeState)) :
    (writing told outcome).map Prod.snd = outcome.map Prod.snd := by
  cases outcome <;> rfl

/-- A batch of one mutation is applied like the mutation. -/
theorem map_snd_applyAll_singleton (state : ScopeState) (seed : Timestamp) (mutation : Mutation) :
    (state.applyAll seed [mutation]).map Prod.snd = (state.apply seed mutation).map Prod.snd := by
  rw [applyAll, map_bind]
  cases state.apply seed mutation <;> rfl

theorem map_snd_applyBatch (state : ScopeState) (now : Timestamp) (batch : List Mutation) :
    (state.applyBatch now batch).map Prod.snd = (state.applyAll now batch).map Prod.snd := by
  rw [applyBatch_eq_map]
  cases state.applyAll now batch <;> rfl

/-- An edit applies its plan. -/
theorem map_snd_edit (limits : Limits) (now : Timestamp) (state : ScopeState) (claim : Timestamp)
    (mutation : Mutation) :
    (state.edit limits now mutation.rowId claim fun state => state.apply claim mutation).map
        Prod.snd =
      state.planEdit limits now claim mutation >>= fun batch =>
        (state.applyAll claim batch).map Prod.snd := by
  rw [edit, planEdit, map_bind, bind_assoc]
  refine bind_congr fun _ => ?_
  rw [map_bind, bind_assoc]
  refine bind_congr fun _ => ?_
  rw [pure_bind]
  -- The edit is done just if no row is ahead of the claim.
  cases hget : state.get? mutation.rowId with
  | none =>
    show (state.apply claim mutation >>= _).map Prod.snd =
      (state.applyAll claim [mutation]).map Prod.snd
    rw [map_snd_applyAll_singleton]
    cases state.apply claim mutation <;> rfl
  | some row =>
    rw [filter_claim_lt, mayReplace, Option.all_some]
    by_cases hle : row.modifiedAt ≤ claim
    · simp only [hle, ↓reduceIte, decide_true]
      rw [map_snd_applyAll_singleton]
      cases state.apply claim mutation <;> rfl
    · simp only [hle, ↓reduceIte, decide_false, Bool.false_eq_true]
      rfl

/-- A call applies its plan to the state, unless it is refused. -/
theorem map_snd_perform (limits : Limits) (now : Timestamp) (state : ScopeState)
    (call : SyncCall) :
    (state.perform limits now call).map Prod.snd =
      state.plan limits now call >>= fun batch =>
        (state.applyAll (call.seed now) batch).map Prod.snd := by
  cases call with
  | rows | snapshot | changesSince => rfl
  | row id =>
    rw [perform, plan]
    cases state.getLive id <;> rfl
  | put id payload =>
    rw [perform, plan, map_snd_writing, map_bind, bind_assoc]
    refine bind_congr fun _ => ?_
    exact (map_snd_applyAll_singleton state now (.upsert id payload)).symm
  | delete id =>
    rw [perform, plan, map_snd_writing, map_bind, bind_assoc]
    refine bind_congr fun _ => ?_
    exact (map_snd_applyAll_singleton state now (.delete id)).symm
  | sync base batch =>
    rw [perform, plan, map_snd_writing, sync, map_bind, bind_assoc]
    refine bind_congr fun _ => ?_
    show (state.applyAll now _ >>= _).map Prod.snd = (state.applyAll now _).map Prod.snd
    cases state.applyAll now (splitBatch (state.changesAfter base) batch).accepted <;> rfl
  | push batch =>
    rw [perform, plan, map_snd_writing, push, map_bind, bind_assoc]
    refine bind_congr fun _ => ?_
    exact map_snd_applyBatch state now batch
  | replace rows =>
    rw [perform, plan, map_snd_writing, replace, map_bind, bind_assoc]
    refine bind_congr fun _ => ?_
    rw [map_bind]
    exact bind_congr fun batch => map_snd_applyBatch state now batch
  | putIfRecent id payload claim =>
    rw [perform, plan, map_snd_writing]
    exact map_snd_edit limits now state claim (.upsert id payload)
  | deleteIfRecent id claim =>
    rw [perform, plan, map_snd_writing]
    exact map_snd_edit limits now state claim (.delete id)

/-- A call that succeeds has applied its plan. -/
theorem plan_of_perform_eq_ok (h : state.perform limits now call = .ok (reply, state')) :
    ∃ batch rows, state.plan limits now call = .ok batch ∧
      state.applyAll (call.seed now) batch = .ok (rows, state') := by
  have hmap := map_snd_perform limits now state call
  rw [h] at hmap
  obtain ⟨batch, hplan, hlast⟩ := bind_eq_ok_iff.1 hmap.symm
  obtain ⟨⟨rows, last⟩, happly, heq⟩ := map_eq_ok_iff.1 hlast
  cases heq
  exact ⟨batch, rows, hplan, happly⟩

/-- A call fails just if it is refused or its plan cannot be applied, and in the same way. -/
theorem perform_eq_error_iff : state.perform limits now call = .error e ↔
    state.plan limits now call = .error e ∨
      ∃ batch, state.plan limits now call = .ok batch ∧
        state.applyAll (call.seed now) batch = .error e := by
  rw [← map_eq_error_iff (f := Prod.snd), map_snd_perform, bind_eq_error_iff]
  simp only [map_eq_error_iff]

end ScopeState

end RowSync
