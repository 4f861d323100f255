import RowSync.Mutation

/-!
# Limits

How much a request may ask for: the number of entries in one batch, and how far a claimed edit time
may be ahead of the wall clock.
-/

namespace RowSync

/-- What requests are held to. -/
structure Limits where
  /-- The greatest number of mutations or rows in one request. -/
  maxBatch : Nat := 1000
  /-- How far a claimed edit time may be ahead of the wall clock; any distance, if there is none. -/
  maxSkew : Option Timestamp := some 300000
deriving DecidableEq, Repr

namespace Limits

/-- Refuse batches with too many entries. -/
def checkLength (limits : Limits) (length : Nat) : Except SyncError Unit :=
  if limits.maxBatch < length then .error (.batchLength length limits.maxBatch) else .ok ()

/-- Refuse batches with too many mutations, or with an invalid row id. -/
def checkBatch (limits : Limits) (batch : List Mutation) : Except SyncError Unit := do
  limits.checkLength batch.length
  batch.forM Mutation.check

/-- Refuse claimed edit times that are out of range or too far ahead of the wall clock. A claim far
in the future would leave all later timestamps of the scope beyond it. -/
def checkClaim (limits : Limits) (claim now : Timestamp) : Except SyncError Unit :=
  if maxTimestamp < claim then .error (.claimOutOfRange claim)
  else
    match limits.maxSkew with
    | some skew => if now.addCapped skew < claim then .error (.claimAhead claim skew) else .ok ()
    | none => .ok ()

end Limits

end RowSync
