import RowSync.Proofs.Batches
import RowSync.Proofs.Exchange

/-!
# Exchanges of Disjoint Batches

An exchange looks at no rows but those that its batch names: these decide which of its mutations
give way and whether a deletion fails (`ScopeState.verdict`), and they alone are written. Other
exchanges move the mark of the scope, and so the timestamps of later writes, but no content depends
on these. So exchanges of batches that have no row in common can be made in either order: each of
them comes to the same, and the rows have the same content (`SyncTables.disjoint_syncs_commute`),
unless the scope runs out of timestamps.
-/

namespace RowSync

/-- Whether an operation failed since the storage has no timestamps left. -/
def failsInStorage {α : Type} : Except SyncError α → Bool
  | .ok _ => false
  | .error e => e.kind = .storage

theorem failsInStorage_map {α β : Type} (outcome : Except SyncError α) (f : α → β) :
    failsInStorage (outcome.map f) = failsInStorage outcome := by
  cases outcome <;> rfl

/-- Only of the rows that a batch names it matters whether they changed. -/
theorem splitBatch_congr {changes changes' : List Row} {batch : List Mutation}
    (h : ∀ id ∈ batch.map Mutation.rowId, id ∈ changes.map Row.id ↔ id ∈ changes'.map Row.id) :
    splitBatch changes batch = splitBatch changes' batch := by
  have htouched : ∀ id ∈ batch.map Mutation.rowId, isTouched changes id = isTouched changes' id :=
    fun id hid => by rw [Bool.eq_iff_iff, isTouched_iff, isTouched_iff, h id hid]
  have haccepted : (batch.filter fun mutation => !isTouched changes mutation.rowId) =
      batch.filter fun mutation => !isTouched changes' mutation.rowId :=
    List.filter_congr fun mutation hmem => by
      rw [htouched mutation.rowId (List.mem_map_of_mem hmem)]
  rw [splitBatch, splitBatch, haccepted, List.filter_congr htouched]

namespace ScopeState

variable {limits : Limits} {now now' base : Timestamp} {state state' : ScopeState}
  {batch : List Mutation} {id : RowId}

/-- What an exchange comes to unless the scope runs out of timestamps: its conflicts, or the reason
why it fails. -/
def verdict (limits : Limits) (state : ScopeState) (base : Timestamp) (batch : List Mutation) :
    Except SyncError (List RowId) := do
  limits.checkBatch batch
  let split := splitBatch (state.changesAfter base) batch
  checkPresent state.isKnown split.accepted
  return split.conflicts

/-- The state after an exchange, the one before if it fails. -/
def synced (limits : Limits) (now : Timestamp) (state : ScopeState) (base : Timestamp)
    (batch : List Mutation) : ScopeState :=
  state.settle (state.sync limits now base batch)

/-- An exchange comes to its verdict. -/
theorem conflicts_sync (hsound : state.Sound)
    (hstorage : failsInStorage (state.sync limits now base batch) = false) :
    (state.sync limits now base batch).map (fun told => told.1.conflicts) =
      state.verdict limits base batch := by
  rw [sync] at hstorage ⊢
  rw [verdict]
  cases hcheck : limits.checkBatch batch with
  | error e => rfl
  | ok _ =>
    rw [hcheck] at hstorage
    rcases applyAll_cases hsound now (splitBatch (state.changesAfter base) batch).accepted with
      ⟨-, mark, hmark⟩ | hcases
    · -- Running out of timestamps is a failure of the storage.
      change failsInStorage (state.applyAll now _ >>= _) = false at hstorage
      rw [hmark] at hstorage
      cases hstorage
    · show (state.applyAll now _ >>= _).map _ = checkPresent state.isKnown _ >>= _
      rw [← hcases]
      cases state.applyAll now (splitBatch (state.changesAfter base) batch).accepted <;> rfl

/-- The rows that a batch names decide how it is divided. -/
theorem splitBatch_changesAfter_congr (hsound : state.Sound) (hsound' : state'.Sound)
    (hsame : ∀ id ∈ batch.map Mutation.rowId, state.get? id = state'.get? id) (base : Timestamp) :
    splitBatch (state.changesAfter base) batch = splitBatch (state'.changesAfter base) batch := by
  refine splitBatch_congr fun id hid => ?_
  have hchanged {state : ScopeState} (h : state.Sound) :
      id ∈ (state.changesAfter base).map Row.id ↔
        ∃ row, state.get? id = some row ∧ base < row.modifiedAt := by
    rw [List.mem_map]
    constructor
    · rintro ⟨row, hrow, rfl⟩
      exact ⟨row, h.mem_changesAfter_iff.1 hrow⟩
    · rintro ⟨row, hget, htime⟩
      obtain rfl := h.keyed hget
      exact ⟨row, h.mem_changesAfter_iff.2 ⟨hget, htime⟩, rfl⟩
  rw [hchanged hsound, hchanged hsound', hsame id hid]

/-- What is accepted of a batch names rows of the batch. -/
theorem mem_batch_of_mem_accepted {changes : List Row}
    (h : id ∈ (splitBatch changes batch).accepted.map Mutation.rowId) :
    id ∈ batch.map Mutation.rowId := by
  rw [accepted_splitBatch] at h
  exact List.map_subset _ (List.filter_subset_self _) h

/-- The rows that a batch names decide what an exchange of it comes to. -/
theorem verdict_congr (hsound : state.Sound) (hsound' : state'.Sound)
    (hsame : ∀ id ∈ batch.map Mutation.rowId, state.get? id = state'.get? id)
    (limits : Limits) (base : Timestamp) :
    state.verdict limits base batch = state'.verdict limits base batch := by
  let accepted := (splitBatch (state'.changesAfter base) batch).accepted
  have hpresent : checkPresent state.isKnown accepted = checkPresent state'.isKnown accepted := by
    refine checkPresent_congr fun id hid => ?_
    rw [isKnown, isKnown, hsame id (mem_batch_of_mem_accepted hid)]
  simp only [verdict, splitBatch_changesAfter_congr hsound hsound' hsame base, hpresent, accepted]

/-- An exchange that succeeds applies what it accepts. -/
theorem applyAll_of_sync {report : SyncReport}
    (h : state.sync limits now base batch = .ok (report, state')) :
    ∃ rows, state.applyAll now (splitBatch (state.changesAfter base) batch).accepted =
      .ok (rows, state') := by
  obtain ⟨_, -, h⟩ := bind_eq_ok_iff.1 h
  obtain ⟨⟨rows, last⟩, happly, h⟩ := bind_eq_ok_iff.1 h
  cases h
  exact ⟨rows, happly⟩

/-- A row that the batch does not name is as it was. -/
theorem get?_synced_of_notMem (hsound : state.Sound) (hid : id ∉ batch.map Mutation.rowId) :
    (state.synced limits now base batch).get? id = state.get? id := by
  rw [synced]
  cases hsync : state.sync limits now base batch with
  | error e => rfl
  | ok told =>
    obtain ⟨rows, happly⟩ := applyAll_of_sync hsync
    obtain ⟨hids, hstate, -⟩ := applyAll_eq_ok hsound happly
    rw [settle, hstate]
    refine get?_putAll_of_notMem fun hmem => hid ?_
    rw [hids] at hmem
    exact mem_batch_of_mem_accepted hmem

/-- States with the same rows under the ids that a batch names have the same conflicts in an
exchange of it, or the same failure, and rows of the same content after it. -/
theorem sync_alike (hsound : state.Sound) (hsound' : state'.Sound)
    (hsame : ∀ id ∈ batch.map Mutation.rowId, state.get? id = state'.get? id)
    (hstorage : failsInStorage (state.sync limits now base batch) = false)
    (hstorage' : failsInStorage (state'.sync limits now' base batch) = false) :
    (state.sync limits now base batch).map (fun told => told.1.conflicts) =
        (state'.sync limits now' base batch).map (fun told => told.1.conflicts) ∧
      ∀ id ∈ batch.map Mutation.rowId,
        ((state.synced limits now base batch).get? id).map Row.content =
          ((state'.synced limits now' base batch).get? id).map Row.content := by
  have htold := (conflicts_sync hsound hstorage).trans
    ((verdict_congr hsound hsound' hsame limits base).trans (conflicts_sync hsound' hstorage').symm)
  refine ⟨htold, fun id hid => ?_⟩
  rw [synced, synced]
  -- Either both exchanges fail and leave the rows as they were, or both apply the same mutations.
  cases hsync : state.sync limits now base batch with
  | error e =>
    cases hsync' : state'.sync limits now' base batch with
    | error e' => rw [settle, settle, hsame id hid]
    | ok told' =>
      rw [hsync, hsync'] at htold
      cases htold
  | ok told =>
    cases hsync' : state'.sync limits now' base batch with
    | error e' =>
      rw [hsync, hsync'] at htold
      cases htold
    | ok told' =>
      obtain ⟨rows, happly⟩ := applyAll_of_sync hsync
      obtain ⟨rows', happly'⟩ := applyAll_of_sync hsync'
      rw [settle, settle, content_applyAll hsound happly, content_applyAll hsound' happly',
        splitBatch_changesAfter_congr hsound hsound' hsame base, hsame id hid]

end ScopeState

namespace SyncTables

variable {limits : Limits} {store : Store} {scope : Scope} {batch other : List Mutation}
  {now now' later base base' : Timestamp} {id : RowId}

/-- A row that the batch does not name is as it was before the exchange. -/
theorem get?_sync_of_notMem (hsound : store.Sound) (hid : id ∉ batch.map Mutation.rowId) :
    ((sync limits store scope now base batch).2.state scope).get? id =
      (store.state scope).get? id := by
  have hfollows : store.Follows scope (sync limits store scope now base batch) _ :=
    follows_sync hsound base batch
  rw [hfollows.state]
  exact ScopeState.get?_synced_of_notMem (hsound scope).state hid

/-- An exchange that is made after another one, whose batch has no row in common with its own, comes
to the same as at once, and leaves the same content in the rows that it names. -/
theorem sync_after_disjoint (hsound : store.Sound)
    (hdisjoint : (batch.map Mutation.rowId).Disjoint (other.map Mutation.rowId))
    (hstorage : failsInStorage (sync limits store scope now base batch).1 = false)
    (hstorage' : failsInStorage
      (sync limits (sync limits store scope now' base' other).2 scope later base batch).1 = false) :
    (sync limits store scope now base batch).1.map SyncReport.conflicts =
        (sync limits (sync limits store scope now' base' other).2 scope later base batch).1.map
          SyncReport.conflicts ∧
      ∀ id ∈ batch.map Mutation.rowId,
        (((sync limits store scope now base batch).2.state scope).get? id).map Row.content =
          (((sync limits (sync limits store scope now' base' other).2 scope later base
            batch).2.state scope).get? id).map Row.content := by
  have hother : store.Follows scope (sync limits store scope now' base' other) _ :=
    follows_sync hsound base' other
  have hatOnce : store.Follows scope (sync limits store scope now base batch) _ :=
    follows_sync hsound base batch
  have hafter : (sync limits store scope now' base' other).2.Follows scope
      (sync limits (sync limits store scope now' base' other).2 scope later base batch) _ :=
    follows_sync hother.sound base batch
  rw [hatOnce.result, failsInStorage_map] at hstorage
  rw [hafter.result, failsInStorage_map] at hstorage'
  -- The other exchange leaves the rows of this one as they are.
  have hsame (id : RowId) (hid : id ∈ batch.map Mutation.rowId) : (store.state scope).get? id =
      ((sync limits store scope now' base' other).2.state scope).get? id :=
    (get?_sync_of_notMem hsound (hdisjoint hid)).symm
  obtain ⟨htold, hcontent⟩ := ScopeState.sync_alike (hsound scope).state (hother.sound scope).state
    hsame hstorage hstorage'
  have hmap (outcome : Except SyncError (SyncReport × ScopeState)) :
      (outcome.map Prod.fst).map SyncReport.conflicts =
        outcome.map fun told => told.1.conflicts := by
    cases outcome <;> rfl
  rw [hatOnce.result, hatOnce.state, hafter.result, hafter.state, hmap, hmap]
  exact ⟨htold, hcontent⟩

/-- Exchanges of batches that have no row in common commute. They may be made in either order, from
any baselines and at any times; unless one of them fails since the scope runs out of timestamps,
each comes to the same in both orders, with the same conflicts or with the same failure, and all
rows of the scope have the same payload in the end and are tombstones in both orders or in none. -/
theorem disjoint_syncs_commute (hreach : Reachable limits store) (scope : Scope)
    {first second : List Mutation}
    (hdisjoint : (first.map Mutation.rowId).Disjoint (second.map Mutation.rowId))
    (base base' now₁ now₂ now₃ now₄ : Timestamp) :
    let firstBefore := sync limits store scope now₁ base first
    let secondAfter := sync limits firstBefore.2 scope now₂ base' second
    let secondBefore := sync limits store scope now₃ base' second
    let firstAfter := sync limits secondBefore.2 scope now₄ base first
    (∀ answer ∈ [firstBefore.1, secondAfter.1, secondBefore.1, firstAfter.1],
        failsInStorage answer = false) →
      firstBefore.1.map SyncReport.conflicts = firstAfter.1.map SyncReport.conflicts ∧
        secondBefore.1.map SyncReport.conflicts = secondAfter.1.map SyncReport.conflicts ∧
        ∀ id, ((secondAfter.2.state scope).get? id).map Row.content =
          ((firstAfter.2.state scope).get? id).map Row.content := by
  intro firstBefore secondAfter secondBefore firstAfter hstorage
  have hstore : store.Sound := sound_of_reachable hreach
  have hfirst : firstBefore.2.Sound := (follows_sync hstore base first).sound
  have hsecond : secondBefore.2.Sound := (follows_sync hstore base' second).sound
  obtain ⟨hconflicts, hcontent⟩ := sync_after_disjoint hstore hdisjoint
    (hstorage firstBefore.1 (by simp)) (hstorage firstAfter.1 (by simp))
  have hdisjoint' : (second.map Mutation.rowId).Disjoint (first.map Mutation.rowId) :=
    fun _ hid' hid => hdisjoint hid hid'
  obtain ⟨hconflicts', hcontent'⟩ := sync_after_disjoint hstore hdisjoint'
    (hstorage secondBefore.1 (by simp)) (hstorage secondAfter.1 (by simp))
  refine ⟨hconflicts, hconflicts', fun id => ?_⟩
  -- A row is left by the exchange that names it, if one does, and the other one does not touch it.
  by_cases hid : id ∈ first.map Mutation.rowId
  · have hnot : id ∉ second.map Mutation.rowId := hdisjoint hid
    rw [get?_sync_of_notMem hfirst hnot]
    exact hcontent id hid
  · have hkept : (firstAfter.2.state scope).get? id = (secondBefore.2.state scope).get? id :=
      get?_sync_of_notMem hsecond hid
    rw [hkept]
    by_cases hid' : id ∈ second.map Mutation.rowId
    · exact (hcontent' id hid').symm
    · rw [get?_sync_of_notMem hfirst hid', get?_sync_of_notMem hstore hid,
        get?_sync_of_notMem hstore hid']

/-- A batch that writes a new row and deletes it. -/
def fleetingBatch : List Mutation := [.upsert "c" (sampleNote "new"), .delete "c"]

/-- A batch of the sample rows and a batch of a new row are exchanged in either order, at times that
go back in one of them: the second sample row is a conflict both times, and the new row is left as
the same tombstone, but at another timestamp. -/
theorem disjoint_syncs_commute_sample :
    let firstBefore := sync {} sampleStore sampleScope 500 1000 sampleBatch
    let secondAfter := sync {} firstBefore.2 sampleScope 0 2000 fleetingBatch
    let secondBefore := sync {} sampleStore sampleScope 9000 2000 fleetingBatch
    let firstAfter := sync {} secondBefore.2 sampleScope 700 1000 sampleBatch
    (∀ answer ∈ [firstBefore.1, secondAfter.1, secondBefore.1, firstAfter.1],
        failsInStorage answer = false) ∧
      firstBefore.1.map SyncReport.conflicts = .ok ["b"] ∧
      firstAfter.1.map SyncReport.conflicts = .ok ["b"] ∧
      (secondAfter.2.state sampleScope).get? "c" = some ⟨"c", sampleNote "new", 2004, true⟩ ∧
      ((firstAfter.2.state sampleScope).get? "c").map Row.content =
        some (sampleNote "new", true) := by
  intro firstBefore secondAfter secondBefore firstAfter
  have hdisjoint :
      (sampleBatch.map Mutation.rowId).Disjoint (fleetingBatch.map Mutation.rowId) := by
    simp [sampleBatch, fleetingBatch, Mutation.rowId]
  have hstorage : ∀ answer ∈ [firstBefore.1, secondAfter.1, secondBefore.1, firstAfter.1],
      failsInStorage answer = false := by decide +kernel
  obtain ⟨hconflicts, -, hcontent⟩ := disjoint_syncs_commute reachable_sampleStore sampleScope
    hdisjoint 1000 2000 500 0 9000 700 hstorage
  have hfirst : firstBefore.1.map SyncReport.conflicts = .ok ["b"] := by decide +kernel
  have hrow : (secondAfter.2.state sampleScope).get? "c" =
      some ⟨"c", sampleNote "new", 2004, true⟩ := by decide +kernel
  refine ⟨hstorage, hfirst, hconflicts.symm.trans hfirst, hrow, ?_⟩
  rw [← hcontent "c", hrow]
  rfl

end SyncTables

end RowSync
