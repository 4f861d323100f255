import RowSync.Http.Action
import RowSync.Proofs.Database.Sync

/-!
# Requests on Sync Tables

Which requests are about sync tables, and the calls that they make (`Request.syncCall?`). Whatever
can be read of such a request is a call with a baseline in range (`Request.asksSync_action?`), since
times in paths are checked when they are read.
-/

namespace RowSync.Http

/-- Whether the resource is a sync table, or a part or a row of one. -/
def Resource.isSyncTable : Resource → Bool
  | .root | .health | .localTable _ _ | .localRow _ _ _ => false
  | _ => true

/-- A time that is read is in range. -/
theorem timeOf_eq_ok {text : String} {time : Timestamp} (h : timeOf text = .ok time) :
    time ≤ maxTimestamp := by
  have hread : readMillis text = .ok time := by
    rw [timeOf] at h
    cases hmillis : readMillis text with
    | ok millis =>
      rw [hmillis] at h
      cases h
      rfl
    | error fault =>
      rw [hmillis] at h
      cases h
  rw [readMillis] at hread
  split at hread
  · cases hread
  · rename_i millis _
    split at hread
    · cases hread
    · rename_i hle
      cases hread
      -- The number is taken as a word, which can only make it smaller.
      rw [UInt64.le_iff_toNat_le, UInt64.toNat_ofNat']
      exact Nat.le_trans (Nat.mod_le _ _) (Nat.le_of_not_lt hle)

namespace Request

variable {request : Request} {method : Method} {resource : Resource}

/-- The method by which a request is read: one for the head is read like one for the whole. -/
def readMethod (request : Request) : Method :=
  match request.method with
  | .head => .get
  | method => method

/-- The call on a sync table that a request makes, if it makes one and can be read. -/
def syncCall? (request : Request) : Option (Scope × SyncCall) :=
  match (Resource.ofTarget? request.target).bind (request.action? request.readMethod) with
  | some (.ok (.sync scope call)) => some (scope, call)
  | _ => none

/-- The target of the request is a sync table, or nothing at all. -/
def OnSyncTable (request : Request) : Prop :=
  ∀ resource ∈ Resource.ofTarget? request.target, resource.isSyncTable

/-- The database keeps what the request names and writes. -/
def IsKept (request : Request) : Prop :=
  ∀ asked ∈ request.syncCall?, asked.1.IsKept ∧ asked.2.IsKept

instance (request : Request) : Decidable request.OnSyncTable :=
  inferInstanceAs (Decidable (∀ resource ∈ Resource.ofTarget? request.target, _))

instance (request : Request) : Decidable request.IsKept :=
  inferInstanceAs (Decidable (∀ asked ∈ request.syncCall?, _))

/-- What is read, if anything, is a call on a sync table with a baseline in range. -/
def AsksSync (reading : Reading Action) : Prop :=
  ∀ action, reading = .ok action → ∃ scope call, action = .sync scope call ∧ call.InRange

/-- A call with a baseline in range is one. -/
theorem asksSync_pure {scope : Scope} {call : SyncCall} (hrange : call.InRange) :
    AsksSync (pure (.sync scope call)) := by
  intro action h
  cases h
  exact ⟨scope, call, rfl, hrange⟩

/-- What is read after a part of a request is such a call if it is one for whatever the part is. -/
theorem asksSync_bind {α : Type} {part : Reading α} {next : α → Reading Action}
    (h : ∀ value, part = .ok value → AsksSync (next value)) : AsksSync (part >>= next) := by
  intro action haction
  obtain ⟨value, hvalue, hnext⟩ := bind_eq_ok_iff.1 haction
  exact h value hvalue action hnext

/-- What is asked of a sync table is a call on it, with a baseline in range. -/
theorem asksSync_action? {reading : Reading Action} (hsync : resource.isSyncTable)
    (h : request.action? method resource = some reading) : AsksSync reading := by
  -- Each method of a resource reads parts of the request, one after the other, and then calls.
  cases resource with
  | root | health | localTable | localRow => cases hsync
  | snapshot name user =>
    dsimp only [action?] at h
    split at h <;> cases h
    exact asksSync_bind fun _ _ => asksSync_bind fun _ _ => asksSync_pure trivial
  | changes name user =>
    dsimp only [action?] at h
    split at h <;> cases h
    exact asksSync_bind fun _ _ => asksSync_bind fun _ _ => asksSync_bind fun _ _ =>
      asksSync_pure trivial
  | changesSince name user millis =>
    dsimp only [action?] at h
    split at h <;> cases h
    exact asksSync_bind fun _ _ => asksSync_bind fun _ _ => asksSync_bind fun _ _ =>
      asksSync_bind fun base hbase => asksSync_pure (timeOf_eq_ok hbase)
  | exchange name user millis =>
    dsimp only [action?] at h
    split at h <;> cases h
    exact asksSync_bind fun _ _ => asksSync_bind fun _ _ => asksSync_bind fun _ _ =>
      asksSync_bind fun _ _ => asksSync_bind fun base hbase => asksSync_pure (timeOf_eq_ok hbase)
  | replacement name user =>
    dsimp only [action?] at h
    split at h <;> cases h
    exact asksSync_bind fun _ _ => asksSync_bind fun _ _ => asksSync_bind fun _ _ =>
      asksSync_pure trivial
  | table name user =>
    dsimp only [action?] at h
    split at h <;> cases h
    · exact asksSync_bind fun _ _ => asksSync_bind fun _ _ => asksSync_pure trivial
    · exact asksSync_bind fun _ _ => asksSync_bind fun _ _ => asksSync_bind fun _ _ =>
        asksSync_pure trivial
  | row name user key =>
    dsimp only [action?] at h
    split at h <;> cases h
    · exact asksSync_bind fun _ _ => asksSync_bind fun _ _ => asksSync_bind fun _ _ =>
        asksSync_pure trivial
    · exact asksSync_bind fun _ _ => asksSync_bind fun _ _ => asksSync_bind fun _ _ =>
        asksSync_pure trivial
    · exact asksSync_bind fun _ _ => asksSync_bind fun _ _ => asksSync_bind fun _ _ =>
        asksSync_bind fun _ _ => asksSync_bind fun _ _ => asksSync_pure trivial
  | claimedRow name user key millis =>
    dsimp only [action?] at h
    split at h <;> cases h
    exact asksSync_bind fun _ _ => asksSync_bind fun _ _ => asksSync_bind fun _ _ =>
      asksSync_bind fun _ _ => asksSync_bind fun _ _ => asksSync_pure trivial

/-- A request that makes a call on a sync table is read as one. -/
theorem exists_action?_of_syncCall? {scope : Scope} {call : SyncCall}
    (h : request.syncCall? = some (scope, call)) :
    ∃ resource, Resource.ofTarget? request.target = some resource ∧
      request.action? request.readMethod resource = some (.ok (.sync scope call)) := by
  rw [syncCall?] at h
  split at h
  · rename_i hread
    cases h
    exact Option.bind_eq_some_iff.1 hread
  · cases h

theorem action?_options (resource : Resource) : request.action? .options resource = none := by
  cases resource <;> rfl

end Request

end RowSync.Http
