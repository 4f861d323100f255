import RowSync.Proofs.Script.Transaction
import RowSync.Proofs.StoreState

/-!
# Checked Sums

The one sum of timestamps that is not capped is that of the mark and one, by which a clock goes on.
Here it is made with a check, and a call on a sync table that would compute a sum that does not fit
in a word has no outcome at all (`SyncTables.performChecked`). No call does, from whatever store:
each has the outcome that it has without the check (`SyncTables.performChecked_eq`). The capped sums
decide as exact ones would (`SyncTables.SumsFit`).
-/

namespace RowSync

/-- A computation that has no outcome if a sum in it does not fit in a word. -/
abbrev Checked := ExceptT SyncError Option

/-- A computation that has an outcome. -/
def Checked.of {α : Type} (outcome : Except SyncError α) : Checked α := ExceptT.mk (some outcome)

/-- Computations that have an outcome have one after the other. -/
theorem Checked.bind_of {α β : Type} {outcome : Except SyncError α} {next : α → Checked β}
    {next' : α → Except SyncError β} (h : ∀ value, next value = .of (next' value)) :
    Checked.of outcome >>= next = .of (outcome >>= next') := by
  cases outcome with
  | ok value => exact h value
  | error e => rfl

variable {α : Type}

/-! ## Sums with a check -/

/-- The sum of two timestamps, if it fits in a word. -/
def Timestamp.addChecked (a b : Timestamp) : Checked Timestamp :=
  if a.toNat + b.toNat < UInt64.size then .of (.ok (a + b)) else ExceptT.mk none

/-- Assign the next timestamp, with a checked sum. -/
def HybridClock.tickChecked (clock : HybridClock) (seed : Timestamp) :
    Checked (Timestamp × HybridClock) :=
  if maxTimestamp ≤ clock.highWater then throw (.timestampsExhausted clock.highWater)
  else do
    let next := max (min seed maxTimestamp) (← clock.highWater.addChecked 1)
    return (next, ⟨next⟩)

namespace Transaction

/-- Assign a timestamp, with a checked sum. -/
def tickChecked (txn : Transaction) (claim : Option Timestamp) :
    Checked (Timestamp × Transaction) := do
  let (timestamp, clock) ← txn.clock.tickChecked (claim.getD txn.now)
  return (timestamp, { txn with clock })

/-- Write a payload to a row, with a checked sum. -/
def upsertChecked (txn : Transaction) (id : RowId) (payload : Payload) (claim : Option Timestamp) :
    Checked (Row × Transaction) := do
  let (timestamp, txn) ← txn.tickChecked claim
  let row := match txn.get? id with
    | some row => row.update payload timestamp
    | none => .create id payload timestamp
  return (row, txn.stage row)

/-- Turn a row into a tombstone, with a checked sum. -/
def deleteChecked (txn : Transaction) (id : RowId) (claim : Option Timestamp) :
    Checked (Row × Transaction) :=
  match txn.get? id with
  | none => throw (.rowNotFound id)
  | some row => do
    let (timestamp, txn) ← txn.tickChecked claim
    let row := row.entomb timestamp
    return (row, txn.stage row)

end Transaction

/-- Do an operation in a transaction, with checked sums. -/
def Operation.runChecked (operation : Operation α) (txn : Transaction) :
    Checked (α × Transaction) :=
  match operation with
  | .upsert id payload claim => txn.upsertChecked id payload claim
  | .delete id claim => txn.deleteChecked id claim
  | reading => .of (reading.run txn)

/-- Do a script in a transaction, with checked sums. -/
def Script.runChecked (script : Script α) (txn : Transaction) : Checked (α × Transaction) :=
  match script with
  | done value => return (value, txn)
  | refuse cause => throw cause
  | step operation next => do
    let (result, txn) ← operation.runChecked txn
    (next result).runChecked txn

namespace SyncTables

/-- Answer a call on a scope, with checked sums: a call that writes has no outcome if a sum does not
fit in a word. -/
def performChecked (limits : Limits) (store : Store) (scope : Scope) (now : Timestamp)
    (call : SyncCall) : Option (Except SyncError SyncReply × Store) :=
  match call.script? with
  | none => some (perform limits store scope now call)
  | some script =>
    match call.check limits now with
    | .error e => some (.error e, store)
    | .ok _ => do
      let outcome ← (script.runChecked (.start (store.table scope) now)).run
      return store.transact scope now fun _ => outcome

end SyncTables

/-! ## Every sum fits -/

/-- A clock adds one to a mark only if that is not the largest timestamp, so that the sum fits. -/
theorem HybridClock.tickChecked_eq (clock : HybridClock) (seed : Timestamp) :
    clock.tickChecked seed = .of (clock.tick seed) := by
  rw [tickChecked, tick]
  split
  · rfl
  · rename_i hlt
    have hfits : clock.highWater.toNat + (1 : Timestamp).toNat < UInt64.size := by
      rw [UInt64.not_le, UInt64.lt_iff_toNat_lt] at hlt
      simp only [maxTimestamp, UInt64.toNat_ofNat, UInt64.size] at hlt ⊢
      omega
    rw [Timestamp.addChecked, if_pos hfits]
    rfl

namespace Transaction

variable (txn : Transaction) (id : RowId) (payload : Payload) (claim : Option Timestamp)

theorem tickChecked_eq : txn.tickChecked claim = .of (txn.tick claim) := by
  rw [tickChecked, HybridClock.tickChecked_eq]
  exact Checked.bind_of fun _ => rfl

theorem upsertChecked_eq : txn.upsertChecked id payload claim =
    .of (txn.upsert id payload claim) := by
  rw [upsertChecked, tickChecked_eq]
  exact Checked.bind_of fun _ => rfl

theorem deleteChecked_eq : txn.deleteChecked id claim = .of (txn.delete id claim) := by
  rw [deleteChecked, delete]
  cases txn.get? id with
  | none => rfl
  | some row =>
    simp only [tickChecked_eq]
    exact Checked.bind_of fun _ => rfl

end Transaction

theorem Operation.runChecked_eq (operation : Operation α) (txn : Transaction) :
    operation.runChecked txn = .of (operation.run txn) := by
  cases operation with
  | row | liveIds | changesAfter | highWater => rfl
  | upsert id payload claim => exact txn.upsertChecked_eq id payload claim
  | delete id claim => exact txn.deleteChecked_eq id claim

/-- A script is done with checked sums as it is without. -/
theorem Script.runChecked_eq (script : Script α) (txn : Transaction) :
    script.runChecked txn = .of (script.run txn) := by
  induction script generalizing txn with
  | done value => rfl
  | refuse cause => rfl
  | step operation next ih =>
    rw [runChecked, Operation.runChecked_eq]
    exact Checked.bind_of fun told => ih told.1 told.2

/-- A claim is acceptable just if it is in range and not further ahead of the wall clock, as a
number, than the limits allow. -/
theorem Limits.checkClaim_eq_ok_iff {limits : Limits} {skew claim now : Timestamp}
    (hskew : limits.maxSkew = some skew) :
    limits.checkClaim claim now = .ok () ↔
      claim ≤ maxTimestamp ∧ claim.toNat ≤ now.toNat + skew.toNat := by
  have hcapped : now.addCapped skew < claim ↔
      min (now.toNat + skew.toNat) (UInt64.size - 1) < claim.toNat := by
    rw [UInt64.lt_iff_toNat_lt, Timestamp.toNat_addCapped]
  rw [checkClaim, hskew, UInt64.le_iff_toNat_le]
  -- The cap is not behind any word, so that only the sum itself can be.
  have hword := claim.toNat_lt
  simp only [UInt64.size] at hcapped
  split
  · rename_i hlt
    rw [UInt64.lt_iff_toNat_lt] at hlt
    exact iff_of_false nofun fun h => absurd h.1 (Nat.not_le.2 hlt)
  · rename_i hle
    rw [UInt64.not_lt, UInt64.le_iff_toNat_le] at hle
    dsimp only
    split
    · rename_i hlt
      rw [hcapped] at hlt
      exact iff_of_false nofun fun h => by omega
    · rename_i hnot
      rw [hcapped] at hnot
      exact iff_of_true rfl ⟨hle, by omega⟩

namespace SyncTables

variable {store : Store}

/-- No call computes a sum that does not fit in a word: each has the outcome with checked sums that
it has without. -/
theorem performChecked_eq (limits : Limits) (store : Store) (scope : Scope) (now : Timestamp)
    (call : SyncCall) : performChecked limits store scope now call =
      some (perform limits store scope now call) := by
  rw [performChecked]
  cases hscript : call.script? with
  | none => rfl
  | some script =>
    dsimp only
    rw [perform_of_script hscript]
    cases call.check limits now with
    | error e => rfl
    | ok _ =>
      dsimp only
      rw [Script.runChecked_eq]
      rfl

/-- The sums of timestamps that calls on a store compute fit in a word, and those that are capped
decide as the exact sums. -/
structure SumsFit (limits : Limits) (store : Store) : Prop where
  /-- Every call has an outcome with checked sums, which is its outcome. -/
  checked : ∀ scope now call, performChecked limits store scope now call =
    some (perform limits store scope now call)
  /-- The rows after a time are those that were written later, for any word as the time. -/
  rowsAfter : ∀ scope time row, row ∈ (store.table scope).rowsAfter time ↔
    (store.table scope).get? row.id = some row ∧ time < row.modifiedAt
  /-- A claim in range is acceptable unless it is ahead of the exact sum. -/
  claims : ∀ skew claim now, limits.maxSkew = some skew →
    (limits.checkClaim claim now = .ok () ↔
      claim ≤ maxTimestamp ∧ claim.toNat ≤ now.toNat + skew.toNat)

theorem sumsFit (h : store.Sound) (limits : Limits) : SumsFit limits store where
  checked := performChecked_eq limits store
  rowsAfter scope _ _ := (h scope).mem_rowsAfter_iff
  claims _ _ _ := Limits.checkClaim_eq_ok_iff

end SyncTables

end RowSync
