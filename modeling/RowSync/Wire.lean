import RowSync.Json.Value
import RowSync.Reconcile
import RowSync.Scope

/-!
# Wire Formats

The JSON forms in which rows, mutations, scopes and reports travel between clients and the service.
Records are objects, of which members that are not known are ignored, or arrays of their members in
the order given here; a flat row is always an object.
-/

namespace RowSync

open Json

/-- A timestamp as a JSON number. -/
def Timestamp.toJson (timestamp : Timestamp) : Json := .ofNat timestamp.toNat

/-- A payload: any object. -/
def Payload.decode : Decoder Payload := fun outline =>
  (Decoder.members outline).map .ofMembers

namespace Scope

/-- A scope as a JSON object. -/
def toJson (scope : Scope) : Json :=
  .obj [("table", .str scope.table), ("user", .str scope.user)]

/-- The known members of a scope. -/
def wireMembers : List (String × Decoder Unit) :=
  [("table", Decoder.string.accepts), ("user", Decoder.string.accepts)]

/-- A scope; its names may be invalid. -/
def decode : Decoder Scope
  | .obj members => do
    Decoder.scan wireMembers [] members
    let table ← Decoder.field "table" .string members
    let user ← Decoder.field "user" .string members
    return ⟨table, user⟩
  | .arr items => do
    let (table, items) ← Decoder.next .string items
    let (user, items) ← Decoder.next .string items
    Decoder.finish ⟨table, user⟩ items
  | other => .error (Decoder.fault other)

end Scope

namespace Row

/-- A row as a JSON object. -/
def toJson (row : Row) : Json :=
  .obj [("uniqueId", .str row.id), ("payload", row.payload.toJson),
    ("modifiedAt", row.modifiedAt.toJson), ("deleted", .bool row.deleted)]

/-- The known members of a row. -/
def wireMembers : List (String × Decoder Unit) :=
  [("uniqueId", Decoder.string.accepts), ("payload", Payload.decode.accepts),
    ("modifiedAt", Decoder.word.accepts), ("deleted", Decoder.bool.accepts)]

/-- A row. -/
def decode : Decoder Row
  | .obj members => do
    Decoder.scan wireMembers [] members
    let id ← Decoder.field "uniqueId" .string members
    let payload ← Decoder.field "payload" Payload.decode members
    let modifiedAt ← Decoder.field "modifiedAt" .word members
    let deleted ← Decoder.field "deleted" .bool members
    return ⟨id, payload, modifiedAt, deleted⟩
  | .arr items => do
    let (id, items) ← Decoder.next .string items
    let (payload, items) ← Decoder.next Payload.decode items
    let (modifiedAt, items) ← Decoder.next .word items
    let (deleted, items) ← Decoder.next .bool items
    Decoder.finish ⟨id, payload, modifiedAt, deleted⟩ items
  | other => .error (Decoder.fault other)

end Row

namespace FlatRow

/-- A flat row as a JSON object, the id in front. -/
def toJson (row : FlatRow) : Json := .obj ((idKey, .str row.id) :: row.fields.members)

/-- A flat row: its id is a string, and the other members are put aside. What they are is asked when
all of them have been. -/
def decode : Decoder FlatRow
  | .obj members => do
    match ← Decoder.collect idKey .string none members with
    | (some id, fields) => return ⟨id, ← Decoder.held (Payload.decode (.obj fields))⟩
    | (none, _) => .error .mismatch
  | other => .error (Decoder.fault other)

end FlatRow

namespace Mutation

/-- The kinds of mutations. -/
inductive Tag where
  | upsert
  | delete
deriving DecidableEq, Repr

/-- The kind of a mutation; inserting and updating are the same. -/
def Tag.decode : Decoder Tag := fun outline => do
  let name ← Decoder.string outline
  if name = "upsert" ∨ name = "insert" ∨ name = "update" then return .upsert
  else if name = "delete" then return .delete
  else .error .mismatch

/-- A mutation as a JSON object. -/
def toJson : Mutation → Json
  | .upsert id payload =>
    .obj [("type", .str "upsert"), ("uniqueId", .str id), ("payload", payload.toJson)]
  | .delete id => .obj [("type", .str "delete"), ("uniqueId", .str id)]

/-- The known members of an upsert, the kind apart. -/
def upsertMembers : List (String × Decoder Unit) :=
  [("uniqueId", Decoder.string.accepts), ("payload", Payload.decode.accepts)]

/-- The known members of a deletion, the kind apart. -/
def deleteMembers : List (String × Decoder Unit) := [("uniqueId", Decoder.string.accepts)]

/-- A mutation of a known kind from its other members. -/
def ofMembers (tag : Tag) (members : List (Option String × Outline)) :
    Except DecodeError Mutation :=
  match tag with
  | .upsert => do
    Decoder.scan upsertMembers [] members
    let id ← Decoder.field "uniqueId" .string members
    let payload ← Decoder.field "payload" Payload.decode members
    return .upsert id payload
  | .delete => do
    Decoder.scan deleteMembers [] members
    let id ← Decoder.field "uniqueId" .string members
    return .delete id

/-- A mutation of a known kind from its other items. -/
def ofItems (tag : Tag) (items : List Outline) : Except DecodeError Mutation :=
  match tag, items with
  | .upsert, [id, payload] => do
    return .upsert (← Decoder.string id) (← Payload.decode payload)
  | .delete, [id] => do return .delete (← Decoder.string id)
  | _, _ => .error .mismatch

/-- A mutation. Its kind decides on the other members, which are put aside before that. -/
def decode : Decoder Mutation
  | .obj members => do
    match ← Decoder.collect "type" Tag.decode none members with
    | (some tag, members) => Decoder.held (ofMembers tag members)
    | (none, _) => .error .mismatch
  | .arr items => do
    let (tag, items) ← Decoder.next Tag.decode items
    items.forM Decoder.hold
    Decoder.held (ofItems tag items)
  | other => .error (Decoder.fault other)

end Mutation

namespace SyncReport

/-- A report as a JSON object; conflicts are left out if there are none. -/
def toJson (report : SyncReport) : Json :=
  let conflicts := if report.conflicts.isEmpty then []
    else [("conflicts", Json.arr (report.conflicts.map .str))]
  .obj ([("newTimestamp", report.newTimestamp.toJson),
    ("changes", .arr (report.changes.map Row.toJson))] ++ conflicts)

/-- The known members of a report. -/
def wireMembers : List (String × Decoder Unit) :=
  [("newTimestamp", Decoder.word.accepts), ("changes", (Decoder.array Row.decode).accepts),
    ("conflicts", (Decoder.array .string).accepts)]

/-- A report. -/
def decode : Decoder SyncReport
  | .obj members => do
    Decoder.scan wireMembers [] members
    let newTimestamp ← Decoder.field "newTimestamp" .word members
    let changes ← Decoder.field "changes" (.array Row.decode) members
    let conflicts ← Decoder.fieldD "conflicts" (.array .string) [] members
    return ⟨newTimestamp, changes, conflicts⟩
  | .arr items => do
    let (newTimestamp, items) ← Decoder.next .word items
    let (changes, items) ← Decoder.next (.array Row.decode) items
    let (conflicts, items) ← Decoder.nextD (.array .string) [] items
    Decoder.finish ⟨newTimestamp, changes, conflicts⟩ items
  | other => .error (Decoder.fault other)

end SyncReport

end RowSync
