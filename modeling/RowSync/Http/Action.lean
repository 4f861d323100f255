import RowSync.Http.Request
import RowSync.Http.Resource

/-!
# Actions

What requests ask for. The resource and the method decide which parts of a request are read, always
in the same order: first the names in the path, then the content, then the scope and the time. Of
several faults the first is reported.
-/

namespace RowSync.Http

/-- What a request asks for. -/
inductive Action where
  /-- Tell what the service is. -/
  | greet
  /-- Tell the state of the service. -/
  | report
  /-- Answer a call on a sync table. -/
  | sync (scope : Scope) (call : SyncCall)
  /-- Answer a call on a local table. -/
  | onLocal (scope : Scope) (call : LocalCall)
deriving DecidableEq, Repr

/-! ## Reading requests -/

/-- A computation that reads a request. -/
abbrev Reading := Except Failure

/-- The table and the user that a path names. -/
def readTable (name user : String) : Reading (String × String) := do
  return (← readName "name" name, ← readName "userid" user)

/-- The scope of a table and a user. -/
def scopeOf (table : String × String) : Reading Scope := readScope table.1 table.2

/-- A time in the path. -/
def timeOf (millis : String) : Reading Timestamp :=
  (readMillis millis).mapError RequestFault.failure

namespace Request

/-- The content of a request. -/
def decode {α : Type} (request : Request) (decoder : Json.Decoder α) : Reading α :=
  (request.readContent decoder).mapError RequestFault.failure

/-- What a request asks for that is made with a method, if the resource has that method. -/
def action? (request : Request) (method : Method) : Resource → Option (Reading Action)
  | .root =>
    match method with
    | .get => some (return .greet)
    | _ => none
  | .health =>
    match method with
    | .get => some (return .report)
    | _ => none
  | .localTable name user =>
    match method with
    | .get => some do
      let table ← readTable name user
      return .onLocal (← scopeOf table) .rows
    | .post => some do
      let table ← readTable name user
      let row ← request.decode FlatRow.decode
      return .onLocal (← scopeOf table) (.put row)
    | _ => none
  | .localRow name user id =>
    match method with
    | .get => some do
      let table ← readTable name user
      let id ← readName "uniqueid" id
      return .onLocal (← scopeOf table) (.row id)
    | .delete => some do
      let table ← readTable name user
      let id ← readName "uniqueid" id
      return .onLocal (← scopeOf table) (.delete id)
    | _ => none
  | .snapshot name user =>
    match method with
    | .get => some do
      let table ← readTable name user
      return .sync (← scopeOf table) .snapshot
    | _ => none
  | .changes name user =>
    match method with
    | .post => some do
      let table ← readTable name user
      let batch ← request.decode (.array Mutation.decode)
      return .sync (← scopeOf table) (.push batch)
    | _ => none
  | .changesSince name user millis =>
    match method with
    | .get => some do
      let table ← readTable name user
      let millis ← readName "millis" millis
      let scope ← scopeOf table
      return .sync scope (.changesSince (← timeOf millis))
    | _ => none
  | .exchange name user millis =>
    match method with
    | .post => some do
      let table ← readTable name user
      let millis ← readName "millis" millis
      let batch ← request.decode (.array Mutation.decode)
      let scope ← scopeOf table
      return .sync scope (.sync (← timeOf millis) batch)
    | _ => none
  | .replacement name user =>
    match method with
    | .post => some do
      let table ← readTable name user
      let rows ← request.decode (.array FlatRow.decode)
      return .sync (← scopeOf table) (.replace rows)
    | _ => none
  | .table name user =>
    match method with
    | .get => some do
      let table ← readTable name user
      return .sync (← scopeOf table) .rows
    | .post => some do
      let table ← readTable name user
      let row ← request.decode FlatRow.decode
      return .sync (← scopeOf table) (.put row.id row.fields)
    | _ => none
  | .row name user key =>
    match method with
    | .get => some do
      let table ← readTable name user
      let id ← readName "key" key
      return .sync (← scopeOf table) (.row id)
    | .delete => some do
      let table ← readTable name user
      let id ← readName "key" key
      return .sync (← scopeOf table) (.delete id)
    | .post => some do
      let table ← readTable name user
      let millis ← readName "key" key
      let row ← request.decode FlatRow.decode
      let scope ← scopeOf table
      return .sync scope (.putIfRecent row.id row.fields (← timeOf millis))
    | _ => none
  | .claimedRow name user key millis =>
    match method with
    | .delete => some do
      let table ← readTable name user
      let id ← readName "key" key
      let millis ← readName "millis" millis
      let scope ← scopeOf table
      return .sync scope (.deleteIfRecent id (← timeOf millis))
    | _ => none

end Request

end RowSync.Http
