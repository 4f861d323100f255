import Mathlib.Data.List.Sort
import RowSync.Database.Session
import RowSync.Proofs.OrderedMap
import RowSync.Proofs.HybridClock

/-!
# Rows in the Database

How the columns of the database keep rows. Timestamps in range are kept as signed words with their
order. A payload is kept if it can be written and reads back as it was (`Payload.IsKept`). The rows
of a scope make a map of their own (`scopeRows`), in which one is found as in the whole table
(`get?_scopeRows`).
-/

namespace RowSync

/-- The database keeps the payload: no string in it has the character U+0000, and its text reads
back as the payload. -/
structure Payload.IsKept (payload : Payload) : Prop where
  /-- The payload can be written. -/
  noNul : Database.jsonHasNul payload.toJson = false
  /-- The text reads back. -/
  reads : Database.readPayload? (Database.payloadText payload) = some payload

instance (payload : Payload) : Decidable payload.IsKept :=
  decidable_of_iff (Database.jsonHasNul payload.toJson = false ∧
    Database.readPayload? (Database.payloadText payload) = some payload)
    ⟨fun h => ⟨h.1, h.2⟩, fun h => ⟨h.noNul, h.reads⟩⟩

namespace Database

/-! ## Times -/

section Times

variable {time other : Timestamp}

/-- A timestamp in range is kept as the same number. -/
theorem toInt_toInt64 (h : time ≤ maxTimestamp) : time.toInt64.toInt = time.toNat := by
  rw [UInt64.le_iff_toNat_le] at h
  simp only [maxTimestamp, UInt64.toNat_ofNat] at h
  -- The top bit of a timestamp in range is not set.
  have hlt : 2 * time.toBitVec.toNat < 2 ^ 64 := by
    rw [UInt64.toNat_toBitVec]
    omega
  exact BitVec.toInt_eq_toNat_of_lt hlt

/-- Timestamps in range are kept in their order. -/
theorem toInt64_le_iff (htime : time ≤ maxTimestamp) (hother : other ≤ maxTimestamp) :
    time.toInt64 ≤ other.toInt64 ↔ time ≤ other := by
  rw [Int64.le_iff_toInt_le, toInt_toInt64 htime, toInt_toInt64 hother, UInt64.le_iff_toNat_le]
  omega

/-- Timestamps in range are kept in their order. -/
theorem toInt64_lt_iff (htime : time ≤ maxTimestamp) (hother : other ≤ maxTimestamp) :
    time.toInt64 < other.toInt64 ↔ time < other := by
  rw [Int64.lt_iff_toInt_lt, toInt_toInt64 htime, toInt_toInt64 hother, UInt64.lt_iff_toNat_lt]
  omega

/-- A stored time in range is not negative, so that it does not count as zero. -/
theorem max_toInt64_zero (h : time ≤ maxTimestamp) : max time.toInt64 0 = time.toInt64 := by
  have hle : (0 : Int64) ≤ time.toInt64 := by
    rw [Int64.le_iff_toInt_le, toInt_toInt64 h]
    exact Int.natCast_nonneg _
  show (if time.toInt64 ≤ 0 then 0 else time.toInt64) = time.toInt64
  split
  · exact Int64.le_antisymm hle ‹_›
  · rfl

theorem timestamp_toInt64 (h : time ≤ maxTimestamp) : StoredRow.timestamp time.toInt64 = time := by
  rw [StoredRow.timestamp, max_toInt64_zero h, UInt64.toUInt64_toInt64]

/-- The greater of two stored times is one of them and an upper bound of both. -/
instance : Std.LawfulOrderMax Int64 := by
  have hmax (a b : Int64) : max a b = if a ≤ b then b else a := rfl
  refine .of_max_le_iff (fun a b c => ?_) fun a b => ?_
  · rw [hmax]
    split <;> rename_i h <;> simp only [Int64.le_iff_toInt_le] at h ⊢ <;> omega
  · rw [hmax]
    split <;> simp

end Times

/-! ## Columns -/

/-- The columns of a row with its id in front. -/
def entry (row : Row) : RowId × StoredRow := (row.id, .ofRow row)

/-- The columns of a row read back as the row just if the text of its payload reads back. -/
theorem toRow?_ofRow_iff {row : Row} (htime : row.modifiedAt ≤ maxTimestamp) :
    (StoredRow.ofRow row).toRow? row.id = some row ↔
      readPayload? (payloadText row.payload) = some row.payload := by
  obtain ⟨id, payload, modifiedAt, deleted⟩ := row
  rw [StoredRow.toRow?, StoredRow.ofRow, timestamp_toInt64 htime]
  simp

/-! ## Rows of a scope -/

section ScopeRows

variable {α : Type} {rows rows' : OrderedMap RowKey α} {scope other : Scope} {id : RowId}
  {value : α}

theorem isOf_iff {key : RowKey} : key.isOf scope ↔ key = .ofScope scope key.id := by
  obtain ⟨table, user, id⟩ := key
  simp [RowKey.isOf, RowKey.ofScope]

theorem ofScope_inj {id' : RowId} :
    RowKey.ofScope scope id = .ofScope other id' ↔ scope = other ∧ id = id' := by
  obtain ⟨table, user⟩ := scope
  obtain ⟨table', user'⟩ := other
  simp [RowKey.ofScope, and_assoc]

/-- What is listed of a scope are its rows. -/
theorem mem_ofScope_iff :
    (id, value) ∈ Tables.ofScope rows scope ↔ rows.get? (.ofScope scope id) = some value := by
  rw [OrderedMap.get?_eq_some_iff, Tables.ofScope, List.mem_map]
  constructor
  · rintro ⟨⟨key, found⟩, hmem, heq⟩
    cases heq
    obtain ⟨hmem, hkey⟩ := List.mem_filter.1 hmem
    -- A key that was let through differs from those of the scope at most in the id.
    have heq : key = .ofScope scope key.id := isOf_iff.1 hkey
    exact heq ▸ hmem
  · intro hmem
    exact ⟨(.ofScope scope id, value), List.mem_filter.2 ⟨hmem, isOf_iff.2 rfl⟩, rfl⟩

/-- The rows of a scope are listed in the order of their ids. -/
theorem ascending_ofScope (rows : OrderedMap RowKey α) (scope : Scope) :
    Ascending (Tables.ofScope rows scope) := by
  refine List.pairwise_map.2 ((rows.ascending.filter _).imp_of_mem fun {a b} ha hb hlt => ?_)
  obtain ⟨⟨ta, ua, ia⟩, va⟩ := a
  obtain ⟨⟨tb, ub, ib⟩, vb⟩ := b
  -- The keys agree in the first two columns, so the third one decides.
  have ha' := isOf_iff.1 (List.mem_filter.1 ha).2
  have hb' := isOf_iff.1 (List.mem_filter.1 hb).2
  cases ha'
  cases hb'
  change (compare scope.table scope.table).then
    ((compare scope.user scope.user).then (compare ia ib)) = .lt at hlt
  simpa using hlt

/-- The rows of a scope as a map. -/
def scopeRows (rows : OrderedMap RowKey α) (scope : Scope) : OrderedMap RowId α :=
  ⟨Tables.ofScope rows scope, ascending_ofScope rows scope⟩

/-- A row of a scope is found under its key in the whole table. -/
theorem get?_scopeRows (rows : OrderedMap RowKey α) (scope : Scope) (id : RowId) :
    (scopeRows rows scope).get? id = rows.get? (.ofScope scope id) :=
  Option.ext fun value => by
    rw [OrderedMap.get?_eq_some_iff]
    exact mem_ofScope_iff

/-- A row is inserted among those of its scope. -/
theorem scopeRows_insert_self (rows : OrderedMap RowKey α) (scope : Scope) (id : RowId)
    (value : α) : scopeRows (rows.insert (.ofScope scope id) value) scope =
      (scopeRows rows scope).insert id value := by
  refine OrderedMap.ext_get? fun found => ?_
  simp only [get?_scopeRows, OrderedMap.get?_insert, ofScope_inj, true_and]

theorem scopeRows_insert_of_ne (h : other ≠ scope) (rows : OrderedMap RowKey α) (id : RowId)
    (value : α) : scopeRows (rows.insert (.ofScope scope id) value) other =
      scopeRows rows other := by
  refine OrderedMap.ext_get? fun found => ?_
  simp only [get?_scopeRows, OrderedMap.get?_insert, ofScope_inj, h, false_and, ↓reduceIte]

/-- A row is removed from those of its scope. -/
theorem scopeRows_erase_self (rows : OrderedMap RowKey α) (scope : Scope) (id : RowId) :
    scopeRows (rows.erase (.ofScope scope id)) scope = (scopeRows rows scope).erase id := by
  refine OrderedMap.ext_get? fun found => ?_
  simp only [get?_scopeRows, OrderedMap.get?_erase, ofScope_inj, true_and]

theorem scopeRows_erase_of_ne (h : other ≠ scope) (rows : OrderedMap RowKey α) (id : RowId) :
    scopeRows (rows.erase (.ofScope scope id)) other = scopeRows rows other := by
  refine OrderedMap.ext_get? fun found => ?_
  simp only [get?_scopeRows, OrderedMap.get?_erase, ofScope_inj, h, false_and, ↓reduceIte]

/-- What a statement lists of a scope is known from the rows of the scope. -/
theorem ofScope_eq_of_scopeRows_eq (h : scopeRows rows scope = scopeRows rows' scope) :
    Tables.ofScope rows scope = Tables.ofScope rows' scope :=
  congrArg OrderedMap.toList h

theorem contains_ofScope (rows : OrderedMap RowKey α) (scope : Scope) (id : RowId) :
    rows.contains (.ofScope scope id) = (scopeRows rows scope).contains id := by
  rw [OrderedMap.contains, OrderedMap.contains, get?_scopeRows]

end ScopeRows

end Database

end RowSync
