import RowSync.Text.Percent

/-!
# Resources

The resources of the service and the paths that name them. The names in a path are taken as they
are written; they are percent-decoded only when a request is read. A path with a fixed word counts
as the resource under that word if there is one, and the word counts as the name of a table if not.

The target of a request is the path itself, or a location: a path with a scheme and an authority in
front of it.
-/

namespace RowSync.Http

/-- A resource, with the names in its path as they are written there. -/
inductive Resource where
  /-- The service. -/
  | root
  /-- The state of the service. -/
  | health
  /-- The rows of a local table. -/
  | localTable (name user : String)
  /-- A row of a local table. -/
  | localRow (name user id : String)
  /-- The live rows of a sync table, with a baseline. -/
  | snapshot (name user : String)
  /-- The changes of a sync table. -/
  | changes (name user : String)
  /-- The changes of a sync table after a baseline. -/
  | changesSince (name user millis : String)
  /-- The exchange of changes with a sync table from a baseline on. -/
  | exchange (name user millis : String)
  /-- The replacement of all rows of a sync table. -/
  | replacement (name user : String)
  /-- The rows of a sync table. -/
  | table (name user : String)
  /-- A row of a sync table, by its id or by a claimed edit time. -/
  | row (name user key : String)
  /-- A row of a sync table with a claimed edit time. -/
  | claimedRow (name user key millis : String)
deriving DecidableEq, Repr

namespace Resource

/-- A character of the scheme of a location. -/
def isSchemeChar (c : Char) : Bool := c.isAlphanum || c == '+' || c == '-' || c == '.'

/-- A character that ends the authority of a location. -/
def endsAuthority (c : Char) : Bool := c == '/' || c == '?' || c == '#'

/-- The path of a target, with the query. Where a location ends with its authority, it is the path
of the root. -/
def targetPath (target : List Char) : List Char :=
  match target.dropWhile isSchemeChar with
  | ':' :: '/' :: '/' :: location =>
    match location.dropWhile (!endsAuthority ·) with
    | '/' :: path => '/' :: path
    | query => '/' :: query
  | _ => target

/-- A target that begins with a slash is a path. -/
@[simp]
theorem targetPath_slash (path : List Char) : targetPath ('/' :: path) = '/' :: path := by
  simp [targetPath, isSchemeChar]

/-- The characters up to the first slash, and the segments after it. -/
def splitSegments : List Char → List Char × List (List Char)
  | [] => ([], [])
  | c :: rest =>
    let (head, tail) := splitSegments rest
    if c = '/' then ([], head :: tail) else (c :: head, tail)

/-- The segments of the path of a target, which starts with a slash; the query is left out. -/
def segments? (target : String) : Option (List String) :=
  match splitSegments ((targetPath target.toList).takeWhile fun c => c != '?' && c != '#') with
  | ([], segments) => some (segments.map String.ofList)
  | _ => none

/-- The resource that segments name. -/
def ofSegments? : List String → Option Resource
  | [""] => some .root
  | ["health"] => some .health
  | ["localtable", name, user] => some (.localTable name user)
  | ["localtable", name, user, id] => some (.localRow name user id)
  | ["synctable", "raw", name, user] => some (.snapshot name user)
  | ["synctable", "changes", name, user] => some (.changes name user)
  | ["synctable", "changes", name, user, millis] => some (.changesSince name user millis)
  | ["synctable", "sync", name, user, millis] => some (.exchange name user millis)
  | ["synctable", "replace", name, user] => some (.replacement name user)
  | ["synctable", name, user] => some (.table name user)
  | ["synctable", name, user, key] => some (.row name user key)
  | ["synctable", name, user, key, millis] => some (.claimedRow name user key millis)
  | _ => none

/-- The resource that a target names. A name may be empty, but not at the end of the path. -/
def ofTarget? (target : String) : Option Resource := do
  let segments ← segments? target
  if 1 < segments.length ∧ segments.getLast? = some "" then none
  else ofSegments? segments

/-- The segments of the path of a resource. -/
def segments : Resource → List String
  | root => [""]
  | health => ["health"]
  | localTable name user => ["localtable", name, user]
  | localRow name user id => ["localtable", name, user, id]
  | snapshot name user => ["synctable", "raw", name, user]
  | changes name user => ["synctable", "changes", name, user]
  | changesSince name user millis => ["synctable", "changes", name, user, millis]
  | exchange name user millis => ["synctable", "sync", name, user, millis]
  | replacement name user => ["synctable", "replace", name, user]
  | table name user => ["synctable", name, user]
  | row name user key => ["synctable", name, user, key]
  | claimedRow name user key millis => ["synctable", name, user, key, millis]

/-- The path of a resource. -/
def path (resource : Resource) : String :=
  String.join (resource.segments.map ("/" ++ ·))

end Resource

end RowSync.Http
