import RowSync.Error

/-!
# Payloads

The content of a row: a JSON object that the service carries and does not look into. A payload is
kept in canonical form, so that equal payloads are the same value.
-/

namespace RowSync

/-- The content of a row. -/
structure Payload where
  /-- The members of the object. -/
  members : List (String × Json)
  /-- The members are in key order, here and in every object inside. -/
  isCanonical : (Json.obj members).isCanonical
deriving DecidableEq, Repr

namespace Payload

/-- Payloads with the same members are equal. -/
@[ext]
theorem ext {p q : Payload} (h : p.members = q.members) : p = q := by
  cases p
  cases q
  cases h
  rfl

/-- The payload without members. -/
def empty : Payload := ⟨[], rfl⟩

instance : Inhabited Payload := ⟨empty⟩

/-- The payload with the given members; of several values for one key the last counts. -/
def ofMembers (members : List (String × Json)) : Payload :=
  ⟨Json.normaliseMembers members, Json.isCanonical_normalise (.obj members)⟩

/-- The payload as a JSON object. -/
def toJson (payload : Payload) : Json := .obj payload.members

/-- A JSON value as a payload, which has to be an object. -/
def ofJson : Json → Except SyncError Payload
  | .obj members => .ok (ofMembers members)
  | value => .error (.payloadKind value.kind)

/-- The payload without the member under a key. -/
def erase (payload : Payload) (key : String) : Payload :=
  ⟨eraseEntry key payload.members, by
    have h := payload.isCanonical
    simp only [Json.isCanonical, Bool.and_eq_true, decide_eq_true_eq] at h ⊢
    exact ⟨h.1.eraseEntry key, Json.membersCanonical_eraseEntry h.2⟩⟩

/-- Taking the members of a payload for a new one gives the payload back. -/
@[simp]
theorem ofMembers_members (payload : Payload) : ofMembers payload.members = payload := by
  have h := payload.isCanonical
  simp only [Json.isCanonical, Bool.and_eq_true, decide_eq_true_eq] at h
  exact ext (Json.normaliseMembers_eq_self h.1 h.2)

/-- A payload written as a JSON value reads back. -/
@[simp]
theorem ofJson_toJson (payload : Payload) : ofJson payload.toJson = .ok payload := by
  simp [ofJson, toJson]

end Payload

end RowSync
