import RowSync.Call
import RowSync.Database.Statement
import RowSync.Text.Substring

/-!
# Sessions

Running statements against a database. A statement fails if the database cannot be reached, if a
value bound to it has the character U+0000, which no column holds, or if a fault was planted for
it. A transaction that fails leaves the tables as it found them.
-/

namespace RowSync.Database

/-- A fault that makes one statement fail. -/
structure Fault where
  /-- The statement to fail has this in its text. -/
  part : String
  /-- So many statements of that kind are let through before. -/
  skip : Nat
deriving DecidableEq, Repr

end RowSync.Database

namespace RowSync

/-- A database as the service sees it. -/
structure Database where
  /-- The rows. -/
  tables : Database.Tables
  /-- Whether statements reach the database. -/
  isReachable : Bool := true
  /-- The fault that is going to strike. -/
  fault : Option Database.Fault := none
deriving DecidableEq, Repr

namespace Database

instance : EmptyCollection Database := ⟨⟨∅, true, none⟩⟩

instance : Inhabited Database := ⟨∅⟩

/-- A computation that runs statements. -/
abbrev Session := ExceptT CallError (StateM Database)

mutual

/-- Whether the character U+0000 is somewhere in the value. -/
def jsonHasNul : Json → Bool
  | .str s => s.toList.contains '\x00'
  | .arr items => itemsHaveNul items
  | .obj members => membersHaveNul members
  | _ => false

/-- Whether the character U+0000 is in one of the items. -/
def itemsHaveNul : List Json → Bool
  | [] => false
  | item :: rest => jsonHasNul item || itemsHaveNul rest

/-- Whether the character U+0000 is in one of the keys or values. -/
def membersHaveNul : List (String × Json) → Bool
  | [] => false
  | (key, value) :: rest => key.toList.contains '\x00' || jsonHasNul value || membersHaveNul rest

end

/-- Whether the character U+0000 is in a value bound to the statement. -/
def Statement.hasNul {α : Type} (statement : Statement α) : Bool :=
  statement.texts.any (·.toList.contains '\x00') || statement.payload?.any (jsonHasNul ·.toJson)

/-- The fault after a statement, and whether it struck. -/
def Fault.meet (fault : Fault) (text : String) : Bool × Option Fault :=
  if Text.hasPart text fault.part then
    match fault.skip with
    | 0 => (true, none)
    | n + 1 => (false, some { fault with skip := n })
  else (false, some fault)

/-- Whether the fault strikes a statement, and the database after it was asked. -/
def meetFault (db : Database) (text : String) : Bool × Database :=
  match db.fault with
  | none => (false, db)
  | some fault =>
    let (strikes, fault) := fault.meet text
    (strikes, { db with fault })

/-- Run a statement. -/
def run {α : Type} (statement : Statement α) : Session α := fun db =>
  if !db.isReachable || statement.hasNul then (.error .database, db)
  else
    match db.meetFault statement.text with
    | (true, db) => (.error .database, db)
    | (false, db) =>
      let (result, tables) := statement.eval db.tables
      (.ok result, { db with tables })

/-- Run a computation in a transaction. If it fails, or if the commit fails, the tables are as they
were before. -/
def transaction {α : Type} (body : Session α) : Session α := fun db =>
  match run .begin db with
  | (.error e, db) => (.error e, db)
  | (.ok (), opened) =>
    match (do let result ← body; run .commit; return result : Session α) opened with
    | (.ok result, db) => (.ok result, db)
    | (.error e, db) => (.error e, { db with tables := opened.tables })

/-- Refuse an operation for a cause of its own. -/
def check {α : Type} (outcome : Except SyncError α) : Session α :=
  match outcome with
  | .ok result => pure result
  | .error cause => throw (.refused cause)

end Database

end RowSync
