import RowSync.Error

/-!
# Scopes

A scope is a table of one user. Scopes share nothing: each has its own rows and its own clock.
-/

namespace RowSync

/-- A table of one user. -/
structure Scope where
  /-- The name of the table. -/
  table : String
  /-- The name of the user. -/
  user : String
deriving DecidableEq, Repr

namespace Scope

/-- Scopes are ordered by table and then by user. -/
instance : Ord Scope := ⟨compareLex (compareOn table) (compareOn user)⟩

instance : Std.TransOrd Scope :=
  inferInstanceAs (Std.TransCmp (compareLex (compareOn table) (compareOn user)))

instance : Std.LawfulEqOrd Scope where
  eq_of_compare {a b} h := by
    obtain ⟨ta, ua⟩ := a
    obtain ⟨tb, ub⟩ := b
    obtain ⟨ht, hu⟩ := Ordering.then_eq_eq.1
      (show (compare ta tb).then (compare ua ub) = .eq from h)
    rw [Std.LawfulEqOrd.eq_of_compare ht, Std.LawfulEqOrd.eq_of_compare hu]

/-- A character that table names may have. -/
def isNameChar (c : Char) : Bool := c.isAlphanum || c == '_' || c == '-'

/-- Whether a name is neither empty nor too long. -/
def hasNameLength (name : String) : Bool :=
  0 < name.utf8ByteSize && name.utf8ByteSize ≤ maxNameLength

/-- The scope of a table and a user, whose names have to be valid. -/
def ofNames (table user : String) : Except SyncError Scope :=
  if !hasNameLength table then .error .tableNameLength
  else if !table.toList.all isNameChar then .error (.tableNameCharacters table)
  else if !hasNameLength user then .error .userNameLength
  else .ok ⟨table, user⟩

/-- Scopes in their order; equal ones stay as they are. -/
def inOrder (scopes : List Scope) : List Scope := scopes.mergeSort fun a b => (compare a b).isLE

/-- The name of the scope, `table/user`. -/
def name (scope : Scope) : String := scope.table ++ "/" ++ scope.user

end Scope

end RowSync
