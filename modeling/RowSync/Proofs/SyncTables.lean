import RowSync.Proofs.StoreState

/-!
# Sync Tables in Step with States

Every call on a sync table does what the call on the state of its scope does
(`follows_perform`), in whatever order calls are made on whatever scopes. Stores that are reached
by calls are sound (`sound_of_reachable`).
-/

namespace RowSync.SyncTables

variable {limits : Limits} {store : Store} {scope : Scope} {now : Timestamp}

/-! ## Operations in a transaction -/

section Bodies

variable {txn : Transaction}

theorem follows_applyBatch (h : txn.Sound) (batch : List Mutation) :
    Transaction.Follows txn.now
      (do
        let (rows, txn) ← txn.applyAll batch
        return (written rows txn, txn))
      (txn.state.applyBatch txn.now batch) :=
  (h.follows_applyAll batch).bind fun rows ended hsound hnow =>
    .ok (ScopeState.written rows ended.state) hsound hnow

/-- A write is in step that is done or dropped by its claimed edit time. -/
theorem follows_edit (h : txn.Sound) (id : RowId) (claim : Timestamp)
    (write : Transaction → Except SyncError (Row × Transaction))
    (write' : ScopeState → Except SyncError (Row × ScopeState))
    (hwrite : Transaction.Follows txn.now (write txn) (write' txn.state)) :
    Transaction.Follows txn.now
      (match txn.get? id with
        | some row =>
          if mayReplace (some row) claim then do
            let (row, txn) ← write txn
            return (EditOutcome.applied row, txn)
          else return (.stale row, txn)
        | none => do
          let (row, txn) ← write txn
          return (.applied row, txn))
      (match (txn.state.get? id).filter fun row => claim < row.modifiedAt with
        | some row => return (.stale row, txn.state)
        | none => do
          let (row, state) ← write' txn.state
          return (.applied row, state)) := by
  have happlied : Transaction.Follows txn.now
      (do
        let (row, txn) ← write txn
        return (EditOutcome.applied row, txn))
      (do
        let (row, state) ← write' txn.state
        return (EditOutcome.applied row, state)) :=
    hwrite.bind fun row _ hsound hnow => .ok (EditOutcome.applied row) hsound hnow
  rw [h.get?_state]
  cases txn.get? id with
  | none => exact happlied
  | some row =>
    -- The edit may replace the row just if the row is not ahead of the claim.
    simp only [mayReplace, Option.all_some, decide_eq_true_eq, ScopeState.filter_claim_lt]
    by_cases hle : row.modifiedAt ≤ claim
    · simp only [if_pos hle]
      exact happlied
    · simp only [if_neg hle]
      exact .ok (EditOutcome.stale row) h rfl

end Bodies

/-! ## Calls -/

/-- Exchanging changes is in step. -/
theorem follows_sync (h : store.Sound) (base : Timestamp) (batch : List Mutation) :
    store.Follows scope (sync limits store scope now base batch)
      ((store.state scope).sync limits now base batch) := by
  refine h.follows_guarded _ _ (h.follows_transact ?_)
  have hstart := Transaction.sound_start (h scope) now
  simp only [hstart.changesAfter_eq]
  refine (hstart.follows_applyAll _).bind fun rows ended hsound hnow => ?_
  rw [hsound.changesAfter_eq]
  exact .ok _ hsound hnow

theorem follows_push (h : store.Sound) (batch : List Mutation) :
    store.Follows scope (push limits store scope now batch)
      ((store.state scope).push limits now batch) :=
  h.follows_guarded _ _ (h.follows_transact
    (follows_applyBatch (Transaction.sound_start (h scope) now) batch))

theorem follows_replace (h : store.Sound) (rows : List FlatRow) :
    store.Follows scope (replace limits store scope now rows)
      ((store.state scope).replace limits now rows) := by
  refine h.follows_guarded _ _ (h.follows_transact ?_)
  have hstart := Transaction.sound_start (h scope) now
  -- The ids come in another order, in which they are not used.
  rw [replacementBatch_perm hstart.liveIds_perm]
  exact Transaction.Follows.check fun batch _ => follows_applyBatch hstart batch

/-- A write with a claimed edit time is in step. -/
theorem follows_guarded_edit (h : store.Sound) {id : RowId} {claim : Timestamp}
    {body : Transaction → Except SyncError (EditOutcome × Transaction)}
    {write' : ScopeState → Except SyncError (Row × ScopeState)}
    (hbody : Transaction.Follows now (body (.start (store.table scope) now))
      (match ((store.state scope).get? id).filter fun row => claim < row.modifiedAt with
        | some row => return (.stale row, store.state scope)
        | none => do
          let (row, state) ← write' (store.state scope)
          return (.applied row, state))) :
    store.Follows scope
      (store.guarded (checkEdit limits now id claim) fun store => store.transact scope now body)
      ((store.state scope).edit limits now id claim write') := by
  have hguarded := h.follows_guarded (checkEdit limits now id claim)
    (fun store => store.transact scope now body) (h.follows_transact hbody)
  rw [checkEdit, bind_assoc] at hguarded
  exact hguarded

/-- Every call is in step with the call on the state of its scope. -/
theorem follows_perform (h : store.Sound) (call : SyncCall) :
    store.Follows scope (perform limits store scope now call)
      ((store.state scope).perform limits now call) := by
  have hstart := Transaction.sound_start (h scope) now
  cases call with
  | rows => exact h.follows_reading rfl
  | row id => exact h.follows_reading rfl
  | snapshot => exact h.follows_reading rfl
  | changesSince base =>
    refine h.follows_reading ?_
    rw [changesSince, (h scope).rowsAfter_eq]
    rfl
  | put id payload =>
    exact (h.follows_guarded _ _ (h.follows_transact
      (hstart.follows_upsert id payload none))).mapReply .row
  | delete id =>
    exact (h.follows_guarded _ _ (h.follows_transact (hstart.follows_delete id none))).mapReply .row
  | sync base batch => exact (follows_sync h base batch).mapReply .report
  | push batch => exact (follows_push h batch).mapReply .report
  | replace rows => exact (follows_replace h rows).mapReply .report
  | putIfRecent id payload claim =>
    have hedit := follows_edit hstart id claim (fun txn => txn.upsert id payload (some claim))
      (fun state => state.upsert claim id payload)
      (hstart.follows_upsert id payload (some claim))
    exact (follows_guarded_edit h hedit).mapReply .outcome
  | deleteIfRecent id claim =>
    -- Unlike for a write, a row has to be there, which the operations ask at different points.
    refine (follows_guarded_edit h ?_).mapReply .outcome
    have hedit := follows_edit hstart id claim (fun txn => txn.delete id (some claim))
      (fun state => state.delete claim id) (hstart.follows_delete id (some claim))
    cases hget : (Transaction.start (store.table scope) now).get? id with
    | some row =>
      simp only [hget] at hedit ⊢
      exact hedit
    | none =>
      simp only [hget, Transaction.delete] at hedit ⊢
      exact hedit

/-! ## Runs -/

/-- The second store comes of the first one by calls on any scopes, at any times. -/
inductive RunsTo (limits : Limits) (start : Store) : Store → Prop
  | refl : RunsTo limits start start
  | call {store : Store} (scope : Scope) (now : Timestamp) (call : SyncCall)
    (hrun : RunsTo limits start store) : RunsTo limits start (perform limits store scope now call).2

/-- The stores that are reached by calls from the store without rows. -/
def Reachable (limits : Limits) (store : Store) : Prop := RunsTo limits ∅ store

/-- The scope of the sample store. -/
def sampleScope : Scope := ⟨"notes", "ann"⟩

/-- A payload with a text. -/
def sampleNote (text : String) : Payload := .ofMembers [("text", .str text)]

/-- A store with two rows, one written at 1000 and one at 2000. -/
def sampleStore : Store :=
  (perform {} (perform {} ∅ sampleScope 1000 (.put "a" (sampleNote "first"))).2 sampleScope 2000
    (.put "b" (sampleNote "other"))).2

theorem reachable_sampleStore : Reachable {} sampleStore := .call _ _ _ (.call _ _ _ .refl)

/-- Calls keep a store sound. -/
theorem RunsTo.sound {start : Store} (hrun : RunsTo limits start store) (h : start.Sound) :
    store.Sound := by
  induction hrun with
  | refl => exact h
  | call scope now call _ ih => exact (follows_perform ih call).sound

/-- A store that is reached by calls is sound. -/
theorem sound_of_reachable (h : Reachable limits store) : store.Sound :=
  RunsTo.sound h Store.sound_empty

/-- Any call on any scope makes the state of a scope grow, or leaves it as it is. -/
theorem growsTo_perform (h : store.Sound) (other : Scope) (call : SyncCall) :
    (store.state scope).GrowsTo ((perform limits store other now call).2.state scope) := by
  have hfollows : store.Follows other (perform limits store other now call) _ :=
    follows_perform h call
  by_cases heq : scope = other
  · -- The state of the scope that is called is that after the call on it.
    subst heq
    rw [hfollows.state]
    exact ScopeState.growsTo_after (h scope).state call
  · rw [hfollows.others scope heq]
    exact ScopeState.growsTo_self

/-- Calls on any scopes make the state of a scope grow, or leave it as it is. -/
theorem RunsTo.growsTo {start : Store} (hrun : RunsTo limits start store) (h : start.Sound)
    (scope : Scope) : (start.state scope).GrowsTo (store.state scope) := by
  induction hrun with
  | refl => exact ScopeState.growsTo_self
  | call other now call hrun ih => exact ih.trans (growsTo_perform (hrun.sound h) other call)

end RowSync.SyncTables
