import RowSync.Http.Answer

/-!
# Failures

Why requests fail, and the answers that tell it. Failures that are not the fault of the client are
told without particulars of the database.
-/

namespace RowSync.Http

/-- Why a request fails. -/
inductive Failure where
  /-- The database failed. -/
  | database
  /-- The operation is refused. -/
  | refused (report : ErrorReport)
  /-- The request cannot be understood. -/
  | invalid (detail : String)
  /-- A name in the path is not UTF-8. -/
  | encoding (parameter : String)
deriving DecidableEq, Repr

namespace Failure

/-- The failure of a call. -/
def ofCallError : CallError → Failure
  | .database => .database
  | .refused cause => .refused cause.report

/-- The text of a failure. -/
def message : Failure → String
  | database => "Database error"
  | refused report => "Engine error: " ++ report.message
  | invalid detail => "Invalid request: " ++ detail
  | encoding parameter => "Invalid URL: Invalid UTF-8 in `" ++ parameter ++ "`"

/-- The status that tells a failure. -/
def status : Failure → Nat
  | database => 500
  | refused report =>
    match report.kind with
    | .rowNotFound => 404
    | .storage => 500
    | .invalidArgument | .invalidPayload => 400
  | invalid _ => 400
  | encoding _ => 400

/-- The content that tells a failure. -/
def content : Failure → Content
  | database => .json (.obj [("error", .str "Database error")])
  | refused report =>
    if report.isClientError then .json (.obj [("error", .str report.message)])
    else .json (.obj [("error", .str "Storage error"), ("details", .str report.message)])
  | invalid detail => .json (.obj [("error", .str "Invalid request"), ("details", .str detail)])
  | encoding parameter => .text (encoding parameter).message

/-- The answer that tells a failure. -/
def answer (failure : Failure) : Answer := ⟨failure.status, failure.content⟩

end Failure

end RowSync.Http
