import RowSync.Call
import RowSync.Wire

/-!
# Answers

What the service sends back: a status and a content.
-/

namespace RowSync

namespace Http

/-- The content of an answer. -/
inductive Content where
  /-- No content. -/
  | empty
  /-- Plain text. -/
  | text (text : String)
  /-- A JSON value. -/
  | json (value : Json)
deriving DecidableEq, Repr

/-- An answer to a request. -/
structure Answer where
  /-- The status code. -/
  status : Nat
  /-- The content. -/
  content : Content
deriving DecidableEq, Repr

namespace Answer

/-- The answer without its content. -/
def withoutContent (answer : Answer) : Answer := { answer with content := .empty }

/-- Whether the answer tells that the request failed. -/
def isFailure (answer : Answer) : Bool := 400 ≤ answer.status

end Answer

end Http

/-! ## Replies -/

/-- The outcome of a write with a claimed edit time, as a JSON object. -/
def EditOutcome.toJson (outcome : EditOutcome) : Json :=
  .obj [("applied", .bool outcome.isApplied), ("row", outcome.row.toJson)]

/-- The content that carries a reply. -/
def SyncReply.content : SyncReply → Http.Content
  | .rows written => .json (.arr (written.map Row.toJson))
  | .row written => .json written.toJson
  | .report told => .json told.toJson
  | .outcome told => .json told.toJson

/-- The content that carries a reply. -/
def LocalReply.content : LocalReply → Http.Content
  | .rows written => .json (.arr (written.map FlatRow.toJson))
  | .row written => .json written.toJson
  | .done => .empty

/-- The status of an answer to a call that succeeds: a row that was put is told as created. -/
def SyncCall.status : SyncCall → Nat
  | .put _ _ => 201
  | _ => 200

/-- The status of an answer to a call that succeeds: a row that was put is told as created. -/
def LocalCall.status : LocalCall → Nat
  | .put _ => 201
  | _ => 200

end RowSync
