import RowSync.Proofs.CheckedSums
import RowSync.Proofs.Database.History
import RowSync.Proofs.Plans

/-!
# Seeds of Timestamps

A timestamp is taken from a time, the seed, unless the mark is ahead. The seed is a claimed edit
time or what the wall clock shows, and a claim that passed its check is not far ahead of the wall
clock, so that the seeds of a call are bounded (`SyncCall.seed_le`). The mark then is beyond the
bound by no more than the number of rows written (`ScopeState.AssignedUpTo.mark_le`), over a store
(`Transaction.Sound.assigned_run_logged`) as over a database (`Database.Records.assigned_script`).
-/

namespace RowSync

variable {limits : Limits} {now skew : Timestamp} {bound : Nat} {α β : Type}

/-! ## Seeds of calls -/

/-- The operation takes a timestamp from a time up to a bound, if it takes one. -/
def Operation.SeededUpTo (now : Timestamp) (bound : Nat) : Operation α → Prop
  | .upsert _ _ claim | .delete _ claim => (claim.getD now).toNat ≤ bound
  | .row _ | .liveIds | .changesAfter _ | .highWater => True

/-- A call that passed its check takes timestamps from a time that is ahead of the wall clock by no
more than the limits allow. -/
theorem SyncCall.seed_le {call : SyncCall} (hskew : limits.maxSkew = some skew)
    (hcheck : call.check limits now = .ok ()) :
    (call.seed now).toNat ≤ now.toNat + skew.toNat := by
  cases call with
  | putIfRecent id payload claim | deleteIfRecent id claim =>
    obtain ⟨_, -, hclaim⟩ := bind_eq_ok_iff.1 hcheck
    exact ((Limits.checkClaim_eq_ok_iff hskew).1 hclaim).2
  | rows | row | snapshot | changesSince | put | delete | sync | push | replace =>
    exact Nat.le_add_right _ _

/-- The operations of a call take timestamps from its seed. -/
theorem SyncCall.MayUse.seededUpTo {call : SyncCall} {operation : Operation α}
    (h : call.MayUse operation) (hseed : (call.seed now).toNat ≤ bound) :
    operation.SeededUpTo now bound := by
  cases operation with
  | row | liveIds | changesAfter | highWater => trivial
  | upsert id payload claim =>
    obtain rfl : claim = call.claim? := h
    exact hseed
  | delete id claim =>
    obtain rfl : claim = call.claim? := h
    exact hseed

/-- All operations of a call that passed its check take timestamps from bounded times. -/
theorem SyncCall.seededUpTo_script {call : SyncCall} {script : Script SyncReply}
    (hskew : limits.maxSkew = some skew) (hcheck : call.check limits now = .ok ())
    (hscript : call.script? = some script) (hbound : now.toNat + skew.toNat ≤ bound) :
    script.Uses (Operation.SeededUpTo now bound) :=
  (uses_script hscript).imp fun h => h.seededUpTo (Nat.le_trans (seed_le hskew hcheck) hbound)

/-! ## Rows with bounded seeds -/

namespace ScopeState

variable {state state' : ScopeState} {row : Row} {rows later : List Row}

/-- The rows got their timestamps one after the other, each from a time up to the bound unless the
mark was ahead. -/
def AssignedUpTo (bound : Nat) (state : ScopeState) : List Row → Prop
  | [] => True
  | row :: rest =>
    (∃ seed : Timestamp, seed.toNat ≤ bound ∧ state.nextTime seed = .ok row.modifiedAt) ∧
      (state.put row).AssignedUpTo bound rest

theorem AssignedUpTo.append (h : state.AssignedUpTo bound rows)
    (hlater : (state.putAll rows).AssignedUpTo bound later) :
    state.AssignedUpTo bound (rows ++ later) := by
  induction rows generalizing state with
  | nil => exact hlater
  | cons row rest ih => exact ⟨h.1, ih h.2 hlater⟩

/-- A mark that is beyond the bound by some number of timestamps is beyond it by the number of rows
more after they were written. -/
theorem AssignedUpTo.mark_le (h : state.AssignedUpTo bound rows) {count : Nat}
    (hmark : state.mark.toNat ≤ bound + count) :
    (state.putAll rows).mark.toNat ≤ bound + (count + rows.length) := by
  induction rows generalizing state count with
  | nil => exact hmark
  | cons row rest ih =>
    obtain ⟨⟨seed, hseed, htime⟩, hrest⟩ := h
    -- The timestamp is the seed at most, or the one after the mark.
    have hrow : row.modifiedAt.toNat ≤ bound + (count + 1) := by
      rw [toNat_of_nextTime htime]
      omega
    have hlast := ih hrest hrow
    rw [putAll_cons, List.length_cons]
    omega

theorem assignedUpTo_of_upsert {seed : Timestamp} {id : RowId} {payload : Payload}
    (hseed : seed.toNat ≤ bound) (h : state.upsert seed id payload = .ok (row, state')) :
    state.AssignedUpTo bound [row] := by
  obtain ⟨time, htime, rfl, -⟩ := upsert_eq_ok h
  exact ⟨⟨seed, hseed, htime⟩, trivial⟩

theorem assignedUpTo_of_delete {seed : Timestamp} {id : RowId} (hseed : seed.toNat ≤ bound)
    (h : state.delete seed id = .ok (row, state')) : state.AssignedUpTo bound [row] := by
  obtain ⟨before, time, -, htime, rfl, -⟩ := delete_eq_ok h
  exact ⟨⟨seed, hseed, htime⟩, trivial⟩

end ScopeState

/-! ## Scripts over a store -/

namespace Transaction

variable {txn txn' : Transaction}

theorem Follows.now_eq {outcome : Except SyncError (α × Transaction)}
    {expected : Except SyncError (α × ScopeState)} (h : Follows now outcome expected) {value : α}
    (hok : outcome = .ok (value, txn)) : txn.now = now := by
  cases h with
  | ok value hsound hnow =>
    cases hok
    exact hnow
  | error e => cases hok

/-- An operation with bounded seeds writes rows with such, and at the same time of the wall clock
the transaction goes on. -/
theorem Sound.assigned_operation (h : txn.Sound) {operation : Operation α} {result : α}
    (hseed : operation.SeededUpTo txn.now bound)
    (hrun : operation.run txn = .ok (result, txn')) :
    txn.state.AssignedUpTo bound (operation.written result) ∧ txn'.now = txn.now := by
  cases operation with
  | row | liveIds | changesAfter | highWater =>
    cases hrun
    exact ⟨trivial, rfl⟩
  | upsert id payload claim =>
    have hfollows := h.follows_upsert id payload claim
    exact ⟨ScopeState.assignedUpTo_of_upsert hseed (hfollows.eq_ok hrun).1, hfollows.now_eq hrun⟩
  | delete id claim =>
    have hfollows := h.follows_delete id claim
    exact ⟨ScopeState.assignedUpTo_of_delete hseed (hfollows.eq_ok hrun).1, hfollows.now_eq hrun⟩

/-- A script with bounded seeds writes rows with such. -/
theorem Sound.assigned_run_logged (h : txn.Sound) {script : Script α} {value : α} {rows : List Row}
    (hseeds : script.Uses (Operation.SeededUpTo txn.now bound))
    (hrun : script.logged.run txn = .ok ((value, rows), txn')) :
    txn.state.AssignedUpTo bound rows := by
  induction script generalizing txn rows with
  | done value =>
    cases hrun
    trivial
  | refuse cause => cases hrun
  | step operation next ih =>
    obtain ⟨⟨result, middle⟩, hfirst, hrun⟩ := bind_eq_ok_iff.1 hrun
    rw [Script.run_bind] at hrun
    obtain ⟨⟨⟨value', later⟩, last⟩, hrest, hrun⟩ := bind_eq_ok_iff.1 hrun
    cases hrun
    obtain ⟨hassigned, hnow⟩ := h.assigned_operation hseeds.1 hfirst
    obtain ⟨-, hmiddle, hstate⟩ := h.run_operation hfirst
    -- The rest is done at the same time of the wall clock, from the state after the operation.
    have hlater := ih result hmiddle (hnow ▸ hseeds.2 result) hrest
    rw [hstate] at hlater
    exact hassigned.append hlater

end Transaction

/-! ## Scripts over a database -/

namespace Database

variable {db db' : Database} {scope : Scope} {state : ScopeState}

/-- An operation with bounded seeds writes rows with such. -/
theorem assigned_operation {operation : Operation α} {result : α} {writer : Writer}
    (hseed : operation.SeededUpTo now bound)
    (hwrite : operation.write scope (.ofState scope now state) db = (.ok (result, writer), db')) :
    state.AssignedUpTo bound (operation.written result) := by
  -- A row that is stored has the timestamp that the clock assigned.
  have hstored {seed time : Timestamp} {clock : HybridClock} {row stored : Row}
      {writer : Writer} {middle : Database} (hseed : seed.toNat ≤ bound)
      (htick : HybridClock.tick ⟨state.mark⟩ seed = .ok (time, clock))
      (htime : row.modifiedAt = time)
      (hstore : Writer.store ⟨scope, clock, now⟩ row middle = (.ok (stored, writer), db')) :
      state.AssignedUpTo bound [stored] := by
    obtain ⟨rfl, -, -⟩ := store_eq_ok hstore
    refine ⟨⟨seed, hseed, ?_⟩, trivial⟩
    rw [ScopeState.nextTime, htick, htime]
    rfl
  cases operation with
  | row | liveIds | changesAfter | highWater => trivial
  | upsert id payload claim =>
    obtain ⟨⟨time, ticked⟩, between, hticked, hrest⟩ := bind_eq_ok hwrite
    obtain ⟨clock, htick, rfl, -⟩ := tick_eq_ok hticked
    obtain ⟨found, middle, -, hstore⟩ := bind_eq_ok hrest
    cases found with
    | some before => exact hstored hseed htick rfl hstore
    | none => exact hstored hseed htick rfl hstore
  | delete id claim =>
    obtain ⟨found, middle, -, hrest⟩ := bind_eq_ok hwrite
    cases found with
    | none => cases hrest
    | some before =>
      obtain ⟨⟨time, ticked⟩, between, hticked, hstore⟩ := bind_eq_ok hrest
      obtain ⟨clock, htick, rfl, -⟩ := tick_eq_ok hticked
      exact hstored hseed htick rfl hstore

/-- A script with bounded seeds writes rows with such. -/
theorem Records.assigned_script (h : Records db.tables scope state) {script : Script α} {value : α}
    {rows : List Row} {writer : Writer} (hseeds : script.Uses (Operation.SeededUpTo now bound))
    (hwrite : script.logged.write scope (.ofState scope now state) db =
      (.ok ((value, rows), writer), db')) : state.AssignedUpTo bound rows := by
  induction script generalizing db state rows with
  | done value =>
    cases hwrite
    trivial
  | refuse cause => cases hwrite
  | step operation next ih =>
    obtain ⟨⟨result, middle⟩, between, hfirst, hwrite⟩ := bind_eq_ok hwrite
    rw [Script.write_bind] at hwrite
    obtain ⟨⟨⟨value', later⟩, last⟩, ended, hrest, hwrite⟩ := bind_eq_ok hwrite
    cases hwrite
    have hassigned := assigned_operation hseeds.1 hfirst
    have hoperation := h.wrote_operation hfirst
    rw [hoperation.writer_eq] at hrest
    exact hassigned.append (ih result hoperation.records (hseeds.2 result) hrest)

end Database

end RowSync
