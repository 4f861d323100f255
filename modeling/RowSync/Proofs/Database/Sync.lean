import RowSync.Proofs.Database.Writers
import RowSync.Proofs.Reconcile

/-!
# Sync Tables in a Database in Step with States

Every call on a sync table of a database answers as the call on the state that the database holds,
as long as the database keeps what the call names and writes (`Holds.answers_perform`).
-/

namespace RowSync

/-- The database keeps what the call names and writes. -/
def SyncCall.IsKept : SyncCall → Prop
  | .rows | .snapshot | .changesSince _ => True
  | .row id | .delete id | .deleteIfRecent id _ => NulFree id
  | .put id payload | .putIfRecent id payload _ => NulFree id ∧ payload.IsKept
  | .sync _ batch | .push batch => ∀ mutation ∈ batch, mutation.IsKept
  | .replace given => ∀ row ∈ given, NulFree row.id ∧ row.fields.IsKept

instance (call : SyncCall) : Decidable call.IsKept :=
  match call with
  | .rows | .snapshot | .changesSince _ => inferInstanceAs (Decidable True)
  | .row id | .delete id | .deleteIfRecent id _ => inferInstanceAs (Decidable (NulFree id))
  | .put id payload | .putIfRecent id payload _ =>
    inferInstanceAs (Decidable (NulFree id ∧ payload.IsKept))
  | .sync _ batch | .push batch =>
    inferInstanceAs (Decidable (∀ mutation ∈ batch, mutation.IsKept))
  | .replace given =>
    inferInstanceAs (Decidable (∀ row ∈ given, NulFree row.id ∧ row.fields.IsKept))

/-- The baseline of a call is in range. -/
def SyncCall.InRange : SyncCall → Prop
  | .changesSince base | .sync base _ => base ≤ maxTimestamp
  | _ => True

namespace Database

variable {limits : Limits} {db db' : Database} {scope : Scope} {state : ScopeState}
  {now claim : Timestamp} {id : RowId} {batch : List Mutation} {α β : Type}

/-! ## Putting sessions together -/

/-- A session in step with an operation stays so when the writer is left out of what it tells. -/
theorem Follows.fst {first : Session (α × Writer)} {expected : Except SyncError (α × ScopeState)}
    (h : Follows scope db (withWriter scope now) (first db) expected) :
    Follows scope db result ((first >>= fun told => pure told.1) db) expected := by
  -- The writer is known from the state, so nothing is lost.
  generalize hfirst : first db = outcome at h
  cases h with
  | ok value hholds helse =>
    rw [bind_of_ok hfirst]
    exact .ok value hholds helse
  | error e hhealthy helse =>
    rw [bind_of_error hfirst]
    exact .error e hhealthy helse

/-- A session that reads answers if it leaves the database as it is and tells the same. -/
theorem Holds.answers_reading (h : db.Holds scope state) {session : Session SyncReply}
    {expected : Except SyncError SyncReply}
    (hsession : session db = (expected.mapError .refused, db)) :
    Answers scope db state (session db) (state.reading expected) := by
  rw [hsession]
  cases expected with
  | ok reply => exact ⟨rfl, h, fun _ _ => rfl⟩
  | error e => exact ⟨rfl, h, fun _ _ => rfl⟩

/-- Sessions answer behind the same check. -/
theorem Holds.answers_check (h : db.Holds scope state) {outcome : Except SyncError α}
    {next : α → Session β} {next' : α → Except SyncError (β × ScopeState)}
    (hnext : ∀ value, outcome = .ok value →
      Answers scope db state (next value db) (next' value)) :
    Answers scope db state ((check outcome >>= next) db) (outcome >>= next') := by
  cases outcome with
  | ok value => exact hnext value rfl
  | error e => exact ⟨rfl, h, fun _ _ => rfl⟩

/-- A session answers whose result is told as a reply. -/
theorem Answers.writing {session : Session α} {expected : Except SyncError (α × ScopeState)}
    (h : Answers scope db state (session db) expected) (reply : α → SyncReply) :
    Answers scope db state ((session >>= fun told => pure (reply told)) db)
      (ScopeState.writing reply expected) := by
  obtain ⟨hresult, hholds, hothers⟩ := h
  generalize hsession : session db = outcome at hresult hholds hothers
  obtain ⟨actual, db'⟩ := outcome
  cases expected with
  | ok told =>
    have hactual : actual = .ok told.1 := hresult
    rw [hactual] at hsession
    rw [bind_of_ok hsession]
    exact ⟨rfl, hholds, hothers⟩
  | error e =>
    have hactual : actual = .error (.refused e) := hresult
    rw [hactual] at hsession
    rw [bind_of_error hsession]
    exact ⟨rfl, hholds, hothers⟩

/-- A transaction with a writer answers if what the writer does is in step. -/
theorem Holds.answers_writing (h : db.Holds scope state) (hscope : scope.IsKept)
    {body : Writer → Session α} {expected : Except SyncError (α × ScopeState)}
    (hbody : Follows scope db result (body (.ofState scope now state) db) expected) :
    Answers scope db state (writing scope now body db) expected := by
  refine Follows.transaction h ?_
  rw [bind_of_ok (h.start_eq hscope now)]
  exact hbody

/-! ## Operations -/

section Operations

variable (h : db.Holds scope state) (hscope : scope.IsKept)

include h hscope

theorem Holds.getLive_eq (hid : NulFree id) :
    getLive scope id db = ((state.getLive id).mapError .refused, db) := by
  rw [getLive, ScopeState.getLive]
  cases checkRowId id with
  | error e => rfl
  | ok _ =>
    show (getRow? scope id >>= _) db = _
    rw [bind_of_ok (h.getRow?_eq hscope hid)]
    cases (state.get? id).filter Row.isLive <;> rfl

theorem Holds.answers_snapshot :
    Answers scope db state (snapshot scope db) (.ok (state.snapshot, state)) := by
  have hlock : run (.lock .shared scope) db = (.ok (), db) :=
    run_eq h.healthy (hasNul_lock.2 hscope)
  -- The three statements of the transaction read the database as it is.
  refine Follows.transaction h ?_
  rw [bind_of_ok hlock, bind_of_ok (h.highWater_eq hscope), bind_of_ok (h.liveRows_eq hscope)]
  exact .ok state.snapshot h fun _ _ => rfl

theorem Holds.answers_sync {base : Timestamp} (hbase : base ≤ maxTimestamp)
    (hkept : ∀ mutation ∈ batch, mutation.IsKept) :
    Answers scope db state (sync limits scope now base batch db)
      (state.sync limits now base batch) := by
  refine h.answers_check fun _ _ => h.answers_writing hscope ?_
  rw [bind_of_ok (h.changesAfter_eq hscope hbase)]
  -- What is accepted is part of the batch, and so it is kept.
  have haccepted : ∀ mutation ∈ (splitBatch (state.changesAfter base) batch).accepted,
      mutation.IsKept := by
    intro mutation hmutation
    rw [accepted_splitBatch] at hmutation
    exact hkept mutation (List.mem_of_mem_filter hmutation)
  refine (h.follows_applyAll hscope haccepted).bind fun rows after db' hholds => ?_
  rw [bind_of_ok (hholds.changesAfter_eq hscope hbase)]
  exact .ok _ hholds fun _ _ => rfl

theorem Holds.follows_applyBatch (hkept : ∀ mutation ∈ batch, mutation.IsKept) :
    Follows scope db result (applyBatch (.ofState scope now state) batch db)
      (state.applyBatch now batch) :=
  (h.follows_applyAll hscope hkept).bind fun rows after _ hholds =>
    .ok (ScopeState.written rows after) hholds fun _ _ => rfl

theorem Holds.answers_push (hkept : ∀ mutation ∈ batch, mutation.IsKept) :
    Answers scope db state (push limits scope now batch db) (state.push limits now batch) :=
  h.answers_check fun _ _ => h.answers_writing hscope (h.follows_applyBatch hscope hkept)

theorem Holds.answers_replace {rows : List FlatRow}
    (hkept : ∀ row ∈ rows, NulFree row.id ∧ row.fields.IsKept) :
    Answers scope db state (replace limits scope now rows db) (state.replace limits now rows) := by
  refine h.answers_check fun _ _ => h.answers_writing hscope ?_
  rw [bind_of_ok (h.liveIds_eq hscope)]
  -- The batch is made of deletions of live rows that are dropped and of the rows given.
  refine Follows.check h.healthy fun batch hbatch => h.follows_applyBatch hscope ?_
  obtain ⟨_, -, hbatch⟩ := bind_eq_ok_iff.1 hbatch
  cases hbatch
  intro mutation hmutation
  rcases List.mem_append.1 hmutation with hdropped | hgiven
  · -- A row that is dropped is a live one, and so its id is kept already.
    obtain ⟨id, hid, rfl⟩ := List.mem_map.1 hdropped
    rw [List.mem_mergeSort] at hid
    obtain ⟨row, hrow, rfl⟩ := List.mem_map.1 (List.mem_of_mem_filter hid)
    exact (h.kept (h.sound.mem_liveRows_iff.1 hrow).1).id
  · obtain ⟨row, hrow, rfl⟩ := List.mem_map.1 hgiven
    exact hkept row hrow

omit h hscope in
/-- A write that is told as taken is in step if the write is. -/
theorem Follows.applied {first : Session (Row × Writer)}
    {expected : Except SyncError (Row × ScopeState)}
    (hwrite : Follows scope db (withWriter scope now) (first db) expected) :
    Follows scope db result ((first >>= fun told => pure (EditOutcome.applied told.1)) db)
      (do
        let (row, state) ← expected
        return (EditOutcome.applied row, state)) :=
  hwrite.bind fun row _ _ hholds => .ok (EditOutcome.applied row) hholds fun _ _ => rfl

/-- A write with a claimed edit time answers, whatever is done where there is no row. -/
theorem Holds.answers_edit (hid : NulFree id) (write : Writer → Session (Row × Writer))
    (absent : Writer → Session EditOutcome)
    (write' : ScopeState → Except SyncError (Row × ScopeState))
    (hwrite : Follows scope db (withWriter scope now) (write (.ofState scope now state) db)
      (write' state))
    (habsent : state.get? id = none → Follows scope db result
      (absent (.ofState scope now state) db)
      (do
        let (row, state) ← write' state
        return (EditOutcome.applied row, state))) :
    Answers scope db state
      ((check (checkRowId id) >>= fun _ => check (limits.checkClaim claim now) >>= fun _ =>
        writing scope now fun writer => getRow? scope id >>= fun row =>
          match row with
          | some row =>
            if mayReplace (some row) claim then
              write writer >>= fun told => pure (EditOutcome.applied told.1)
            else pure (.stale row)
          | none => absent writer) db)
      (state.edit limits now id claim write') := by
  refine h.answers_check fun _ _ => h.answers_check fun _ _ => h.answers_writing hscope ?_
  rw [bind_of_ok (h.getRow?_eq hscope hid)]
  cases hget : state.get? id with
  | none => exact habsent hget
  | some row =>
    -- Both compare the time of the row with the claim.
    simp only [mayReplace, Option.all_some, ScopeState.filter_claim_lt]
    by_cases hle : row.modifiedAt ≤ claim
    · simp only [hle, decide_true, ↓reduceIte]
      exact hwrite.applied
    · simp only [hle, decide_false, Bool.false_eq_true, ↓reduceIte]
      exact .ok (EditOutcome.stale row) h fun _ _ => rfl

/-- Every call answers as the call on the state that the database holds. -/
theorem Holds.answers_perform {call : SyncCall} (hkept : call.IsKept) (hrange : call.InRange) :
    Answers scope db state (performSync limits scope now call db)
      (state.perform limits now call) := by
  cases call with
  -- Calls that read answer from the database as it is, those that write in one transaction.
  | rows =>
    refine h.answers_reading ?_
    rw [performSync, bind_of_ok (h.liveRows_eq hscope)]
    rfl
  | row id =>
    have hid : NulFree id := hkept
    have hlive := h.getLive_eq hscope hid
    refine h.answers_reading ?_
    rw [performSync]
    cases hget : state.getLive id with
    | ok row =>
      rw [hget] at hlive
      rw [bind_of_ok hlive]
      rfl
    | error e =>
      rw [hget] at hlive
      exact bind_of_error hlive
  | snapshot =>
    exact (h.answers_snapshot hscope).writing .report
  | changesSince base =>
    have hbase : base ≤ maxTimestamp := hrange
    refine h.answers_reading ?_
    have hchanges : changesSince scope base db =
        (.ok (.ofChanges base (state.changesAfter base)), db) := by
      rw [changesSince, bind_of_ok (h.changesAfter_eq hscope hbase)]
      rfl
    rw [performSync, bind_of_ok hchanges]
    rfl
  | put id payload =>
    have hupsert := h.follows_upsert hscope now none hkept.1 hkept.2
    exact (h.answers_check fun _ _ => h.answers_writing hscope hupsert.fst).writing .row
  | delete id =>
    have hid : NulFree id := hkept
    have hdelete := h.follows_delete hscope now none hid
    exact (h.answers_check fun _ _ => h.answers_writing hscope hdelete.fst).writing .row
  | sync base batch => exact (h.answers_sync hscope hrange hkept).writing .report
  | push batch => exact (h.answers_push hscope hkept).writing .report
  | replace rows => exact (h.answers_replace hscope hkept).writing .report
  | putIfRecent id payload claim =>
    have hupsert := h.follows_upsert hscope now (some claim) hkept.1 hkept.2
    exact (h.answers_edit hscope hkept.1 (fun writer => writer.upsert id payload (some claim)) _
      (fun state => state.upsert claim id payload) hupsert fun _ => hupsert.applied).writing
        .outcome
  | deleteIfRecent id claim =>
    have hid : NulFree id := hkept
    have hdelete := h.follows_delete hscope now (some claim) hid
    refine (h.answers_edit hscope hid (fun writer => writer.delete id (some claim)) _
      (fun state => state.delete claim id) hdelete fun hget => ?_).writing .outcome
    -- Where there is no row, the operation on the state fails in the deletion itself.
    rw [ScopeState.delete, hget]
    exact .error _ h.healthy fun _ _ => rfl

end Operations

end Database

end RowSync
