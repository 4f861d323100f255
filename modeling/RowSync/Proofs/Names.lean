import RowSync.Mutation
import RowSync.Row
import RowSync.Scope

/-!
# Valid Names

What the checks on names let through. A scope is valid if its table has a short name of letters,
digits, `_` and `-` and its user a short name (`Scope.IsValid`), and a row id if it is neither empty
nor too long (`RowId.IsValid`); lengths are those of the names in bytes. The checks pass just what
is valid.
-/

namespace RowSync

/-- The names of the scope are such as clients may use. -/
structure Scope.IsValid (scope : Scope) : Prop where
  /-- The name of the table has from 1 to 128 bytes. -/
  table_length : 1 ≤ scope.table.utf8ByteSize ∧ scope.table.utf8ByteSize ≤ 128
  /-- The name of the table has ASCII letters, digits, underscores and dashes only. -/
  table_characters : ∀ c ∈ scope.table.toList, c.isAlphanum ∨ c = '_' ∨ c = '-'
  /-- The name of the user has from 1 to 128 bytes. -/
  user_length : 1 ≤ scope.user.utf8ByteSize ∧ scope.user.utf8ByteSize ≤ 128

/-- The row id has from 1 to 255 bytes. -/
def RowId.IsValid (id : RowId) : Prop := 1 ≤ id.utf8ByteSize ∧ id.utf8ByteSize ≤ 255

instance (id : RowId) : Decidable id.IsValid :=
  inferInstanceAs (Decidable (1 ≤ id.utf8ByteSize ∧ id.utf8ByteSize ≤ 255))

variable {table user : String} {scope : Scope} {id : RowId}

theorem Scope.hasNameLength_iff {name : String} :
    hasNameLength name ↔ 1 ≤ name.utf8ByteSize ∧ name.utf8ByteSize ≤ 128 := by
  rw [hasNameLength, Bool.and_eq_true, decide_eq_true_iff, decide_eq_true_iff]
  rfl

/-- Just the names of a valid scope pass the check. -/
theorem Scope.ofNames_eq_ok_iff :
    Scope.ofNames table user = .ok scope ↔ scope = ⟨table, user⟩ ∧ scope.IsValid := by
  have hvalid : (Scope.mk table user).IsValid ↔
      hasNameLength table ∧ table.toList.all isNameChar ∧ hasNameLength user := by
    simp only [hasNameLength_iff, List.all_eq_true, isNameChar, Bool.or_eq_true, beq_iff_eq,
      or_assoc]
    exact ⟨fun h => ⟨h.table_length, h.table_characters, h.user_length⟩,
      fun h => ⟨h.1, h.2.1, h.2.2⟩⟩
  rw [Scope.ofNames]
  -- Each of the checks stands for one part of being valid.
  constructor
  · intro h
    split at h
    · cases h
    · rename_i htable
      split at h
      · cases h
      · rename_i hchars
        split at h
        · cases h
        · rename_i huser
          cases h
          simp only [Bool.not_eq_true', Bool.not_eq_false] at htable hchars huser
          exact ⟨rfl, hvalid.2 ⟨htable, hchars, huser⟩⟩
  · rintro ⟨rfl, h⟩
    obtain ⟨htable, hchars, huser⟩ := hvalid.1 h
    simp [htable, hchars, huser]

/-- Just valid row ids pass the check. -/
theorem checkRowId_eq_ok_iff : checkRowId id = .ok () ↔ id.IsValid := by
  unfold checkRowId RowId.IsValid maxRowIdLength
  split
  · simp [*]
  · split
    · simp only [reduceCtorEq, false_iff]
      omega
    · simp only [true_iff]
      omega

theorem ne_empty_of_checkRowId (h : checkRowId id = .ok ()) : id ≠ "" := by
  rintro rfl
  cases h

end RowSync
