import RowSync.Json.Basic
import RowSync.Timestamp

/-!
# Errors

The causes for which an operation on rows is refused, and how they are reported. Conflicts and
stale writes are not among them: these are resolved and told in the result.
-/

namespace RowSync

/-- The name of a row, unique within its scope. -/
abbrev RowId := String

/-- The longest table or user name, in bytes. -/
def maxNameLength : Nat := 128

/-- The longest row id, in bytes. -/
def maxRowIdLength : Nat := 255

/-- What an error is about. -/
inductive ErrorKind where
  | rowNotFound
  | invalidArgument
  | invalidPayload
  | storage
deriving DecidableEq, Repr

/-- An error as it is told to callers. -/
structure ErrorReport where
  /-- What the error is about. -/
  kind : ErrorKind
  /-- The particulars. -/
  detail : String
deriving DecidableEq, Repr

namespace ErrorReport

/-- The text of an error. -/
def message (report : ErrorReport) : String :=
  match report.kind with
  | .rowNotFound => "row not found: " ++ report.detail
  | .invalidArgument => "invalid argument: " ++ report.detail
  | .invalidPayload => "invalid payload: " ++ report.detail
  | .storage => "storage failure: " ++ report.detail

/-- Whether the caller caused the error, and not the storage. -/
def isClientError (report : ErrorReport) : Bool := report.kind != .storage

end ErrorReport

/-- Why an operation on rows is refused. -/
inductive SyncError where
  /-- The scope has no such row. -/
  | rowNotFound (id : RowId)
  /-- The table name is empty or too long. -/
  | tableNameLength
  /-- The table name has a character that is not allowed. -/
  | tableNameCharacters (table : String)
  /-- The user name is empty or too long. -/
  | userNameLength
  /-- The row id is empty. -/
  | rowIdEmpty
  /-- The row id is too long. -/
  | rowIdLength
  /-- A replacement names a row twice. -/
  | repeatedRowId (id : RowId)
  /-- The batch has more entries than are accepted. -/
  | batchLength (length limit : Nat)
  /-- A claimed edit time is larger than any timestamp assigned. -/
  | claimOutOfRange (claim : Timestamp)
  /-- A claimed edit time is too far ahead of the wall clock. -/
  | claimAhead (claim skew : Timestamp)
  /-- A payload is not an object. -/
  | payloadKind (found : Json.Kind)
  /-- The scope has assigned the largest timestamp already. -/
  | timestampsExhausted (highWater : Timestamp)
deriving DecidableEq, Repr

namespace SyncError

/-- What the error is about. -/
def kind : SyncError → ErrorKind
  | .rowNotFound _ => .rowNotFound
  | .payloadKind _ => .invalidPayload
  | .timestampsExhausted _ => .storage
  | .tableNameLength | .tableNameCharacters _ | .userNameLength | .rowIdEmpty | .rowIdLength
  | .repeatedRowId _ | .batchLength _ _ | .claimOutOfRange _ | .claimAhead _ _ => .invalidArgument

/-- The particulars of the error. -/
def detail : SyncError → String
  | .rowNotFound id => id
  | .tableNameLength => "table name must be 1..=" ++ toString maxNameLength ++ " characters"
  | .tableNameCharacters table => "invalid table name: " ++ table
  | .userNameLength => "user id must be 1..=" ++ toString maxNameLength ++ " characters"
  | .rowIdEmpty => "row id must not be empty"
  | .rowIdLength => "row id longer than " ++ toString maxRowIdLength ++ " characters"
  | .repeatedRowId id => "duplicate row id in replacement: " ++ id
  | .batchLength length limit =>
    "batch of " ++ toString length ++ " exceeds limit of " ++ toString limit
  | .claimOutOfRange claim => "timestamp " ++ toString claim.toNat ++ " out of range"
  | .claimAhead claim skew =>
    "timestamp " ++ toString claim.toNat ++ " is more than " ++ toString skew.toNat ++
      "ms ahead of server time"
  | .payloadKind found => "expected a JSON object, got " ++ found.name
  | .timestampsExhausted highWater =>
    "timestamp space exhausted at " ++ toString highWater.toNat

/-- The error as it is told to callers. -/
def report (e : SyncError) : ErrorReport := ⟨e.kind, e.detail⟩

end SyncError

end RowSync
