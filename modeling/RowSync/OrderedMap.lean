/-!
# Ordered Maps

Finite maps kept as lists of entries in strictly increasing key order. A map has one representation
only: two maps that answer every lookup alike are equal (`OrderedMap.ext_get?`), and the list of a
map is in key order.

The operations on bare entry lists come first; the members of JSON objects are kept with them too.
-/

namespace RowSync

universe u v

variable {κ : Type u} {α : Type v}

/-- The entries stand in strictly increasing key order. -/
def Ascending [Ord κ] (entries : List (κ × α)) : Prop :=
  entries.Pairwise fun a b => compare a.1 b.1 = .lt

instance [Ord κ] (entries : List (κ × α)) : Decidable (Ascending entries) :=
  inferInstanceAs (Decidable (entries.Pairwise _))

/-- Put a value under a key, at its place in the order, over the value that was there. -/
def insertEntry [Ord κ] (key : κ) (value : α) : List (κ × α) → List (κ × α)
  | [] => [(key, value)]
  | (k, v) :: rest =>
    match compare key k with
    | .lt => (key, value) :: (k, v) :: rest
    | .eq => (key, value) :: rest
    | .gt => (k, v) :: insertEntry key value rest

/-- The value under a key. -/
def lookupEntry [Ord κ] (key : κ) : List (κ × α) → Option α
  | [] => none
  | (k, v) :: rest => if compare key k = .eq then some v else lookupEntry key rest

/-- Drop the entry under a key. -/
def eraseEntry [Ord κ] (key : κ) (entries : List (κ × α)) : List (κ × α) :=
  entries.filter fun e => compare key e.1 != .eq

section Entries

variable [Ord κ]

/-- An entry found after an insertion is the inserted one or was there before. -/
theorem mem_insertEntry {key : κ} {value : α} {e : κ × α} {entries : List (κ × α)}
    (h : e ∈ insertEntry key value entries) : e = (key, value) ∨ e ∈ entries := by
  induction entries with
  | nil => simpa [insertEntry] using h
  | cons head rest ih => grind [insertEntry]

/-- A key that comes before all others is not among them. -/
theorem lookupEntry_eq_none_of_before {key : κ} {entries : List (κ × α)}
    (h : ∀ e ∈ entries, compare key e.1 = .lt) : lookupEntry key entries = none := by
  induction entries with
  | nil => rfl
  | cons head rest ih =>
    have := h head (by simp)
    simp [lookupEntry, this, ih fun e he => h e (by simp [he])]

/-- A key that comes before all others is inserted in front. -/
theorem insertEntry_of_before {key : κ} {value : α} {entries : List (κ × α)}
    (h : ∀ e ∈ entries, compare key e.1 = .lt) :
    insertEntry key value entries = (key, value) :: entries := by
  cases entries with
  | nil => rfl
  | cons head rest =>
    have := h head (by simp)
    simp [insertEntry, this]

/-- Erasing keeps the order. -/
theorem Ascending.eraseEntry {entries : List (κ × α)} (h : Ascending entries) (key : κ) :
    Ascending (eraseEntry key entries) :=
  h.filter _

variable [Std.LawfulEqOrd κ]

/-- Insertion keeps the order. -/
theorem Ascending.insertEntry [Std.TransOrd κ] {entries : List (κ × α)} (h : Ascending entries)
    (key : κ) (value : α) : Ascending (insertEntry key value entries) := by
  induction entries with
  | nil => simp [RowSync.insertEntry, Ascending]
  | cons head rest ih =>
    obtain ⟨k, v⟩ := head
    obtain ⟨hhead, hrest⟩ := List.pairwise_cons.1 h
    rw [RowSync.insertEntry]
    split
    · rename_i hlt
      refine List.pairwise_cons.2 ⟨fun e he => ?_, h⟩
      rcases List.mem_cons.1 he with rfl | he
      · exact hlt
      · exact Std.TransCmp.lt_trans hlt (hhead e he)
    · rename_i heq
      obtain rfl := Std.LawfulEqOrd.eq_of_compare heq
      exact List.pairwise_cons.2 ⟨hhead, hrest⟩
    · rename_i hgt
      refine List.pairwise_cons.2 ⟨fun e he => ?_, ih hrest⟩
      rcases mem_insertEntry he with rfl | he
      · exact Std.OrientedCmp.gt_iff_lt.1 hgt
      · exact hhead e he

/-- Looking up after an insertion. -/
theorem lookupEntry_insertEntry [DecidableEq κ] (key other : κ) (value : α)
    (entries : List (κ × α)) :
    lookupEntry other (insertEntry key value entries) =
      if other = key then some value else lookupEntry other entries := by
  induction entries with
  | nil => simp [insertEntry, lookupEntry]
  | cons head rest ih =>
    obtain ⟨k, v⟩ := head
    rw [insertEntry]
    split
    · simp [lookupEntry]
    · rename_i heq
      obtain rfl := Std.LawfulEqOrd.eq_of_compare heq
      by_cases h : other = key <;> simp [lookupEntry, h]
    · rename_i hgt
      by_cases hk : other = k
      · subst hk
        have hne : other ≠ key := by
          rintro rfl
          simp at hgt
        simp [lookupEntry, hne]
      · by_cases h : other = key <;> simp_all [lookupEntry]

/-- Looking up after an erasure. -/
theorem lookupEntry_eraseEntry [DecidableEq κ] (key other : κ) (entries : List (κ × α)) :
    lookupEntry other (eraseEntry key entries) =
      if other = key then none else lookupEntry other entries := by
  induction entries with
  | nil => simp [eraseEntry, lookupEntry]
  | cons head rest ih =>
    obtain ⟨k, v⟩ := head
    unfold eraseEntry at ih ⊢
    by_cases hk : key = k
    · subst hk
      by_cases h : other = key <;> simp_all [lookupEntry]
    · by_cases ho : other = k
      · subst ho
        simp [lookupEntry, hk, Ne.symm hk]
      · by_cases h : other = key <;> simp_all [lookupEntry]

/-- What an ascending list answers for a key is what it lists under it. -/
theorem lookupEntry_eq_some_iff {entries : List (κ × α)} (h : Ascending entries) {key : κ}
    {value : α} : lookupEntry key entries = some value ↔ (key, value) ∈ entries := by
  induction entries with
  | nil => simp [lookupEntry]
  | cons head rest ih =>
    obtain ⟨k, v⟩ := head
    obtain ⟨hhead, hrest⟩ := List.pairwise_cons.1 h
    rw [lookupEntry]
    split
    · rename_i heq
      obtain rfl := Std.LawfulEqOrd.eq_of_compare heq
      constructor
      · rintro ⟨⟩
        simp
      · intro hmem
        rcases List.mem_cons.1 hmem with heq | hmem
        · cases heq
          rfl
        · have := hhead _ hmem
          simp at this
    · rename_i hne
      rw [ih hrest, List.mem_cons]
      constructor
      · exact .inr
      · rintro (heq | hmem)
        · cases heq
          simp at hne
        · exact hmem

end Entries

/-- A finite map, held as its entries in increasing key order. -/
structure OrderedMap (κ : Type u) (α : Type v) [Ord κ] where
  /-- The entries of the map. -/
  toList : List (κ × α)
  /-- The entries are in increasing key order, hence no key occurs twice. -/
  ascending : Ascending toList
deriving DecidableEq, Repr

namespace OrderedMap

section Basic

variable [Ord κ]

/-- The map without entries. -/
def empty : OrderedMap κ α := ⟨[], .nil⟩

instance : EmptyCollection (OrderedMap κ α) := ⟨empty⟩

instance : Inhabited (OrderedMap κ α) := ⟨empty⟩

/-- The value under a key. -/
def get? (m : OrderedMap κ α) (key : κ) : Option α := lookupEntry key m.toList

/-- Whether a key has a value. -/
def contains (m : OrderedMap κ α) (key : κ) : Bool := (m.get? key).isSome

/-- Remove a key. -/
def erase (m : OrderedMap κ α) (key : κ) : OrderedMap κ α :=
  ⟨eraseEntry key m.toList, m.ascending.eraseEntry key⟩

/-- The keys in increasing order. -/
def keys (m : OrderedMap κ α) : List κ := m.toList.map Prod.fst

/-- The values in the order of their keys. -/
def values (m : OrderedMap κ α) : List α := m.toList.map Prod.snd

/-- The number of entries. -/
def size (m : OrderedMap κ α) : Nat := m.toList.length

/-- Whether there is no entry. -/
def isEmpty (m : OrderedMap κ α) : Bool := m.toList.isEmpty

@[simp]
theorem toList_empty : (∅ : OrderedMap κ α).toList = [] := rfl

@[simp]
theorem get?_empty (key : κ) : (∅ : OrderedMap κ α).get? key = none := rfl

@[simp]
theorem isEmpty_iff {m : OrderedMap κ α} : m.isEmpty ↔ m = ∅ := by
  obtain ⟨entries, _⟩ := m
  constructor
  · intro h
    obtain rfl := List.isEmpty_iff.1 h
    rfl
  · intro h
    rw [h]
    rfl

end Basic

section Lookup

variable [Ord κ] [Std.LawfulEqOrd κ]

@[simp]
theorem get?_erase [DecidableEq κ] (m : OrderedMap κ α) (key other : κ) :
    (m.erase key).get? other = if other = key then none else m.get? other :=
  lookupEntry_eraseEntry ..

/-- A lookup answers what the map lists under the key. -/
theorem get?_eq_some_iff {m : OrderedMap κ α} {key : κ} {value : α} :
    m.get? key = some value ↔ (key, value) ∈ m.toList :=
  lookupEntry_eq_some_iff m.ascending

end Lookup

variable [Ord κ] [Std.TransOrd κ] [Std.LawfulEqOrd κ]

/-- Put a value under a key, over the value that was there. -/
def insert (m : OrderedMap κ α) (key : κ) (value : α) : OrderedMap κ α :=
  ⟨insertEntry key value m.toList, m.ascending.insertEntry key value⟩

/-- The map of a list of entries; of several values for one key the last counts. -/
def ofList (entries : List (κ × α)) : OrderedMap κ α :=
  entries.foldl (fun m e => m.insert e.1 e.2) ∅

@[simp]
theorem get?_insert [DecidableEq κ] (m : OrderedMap κ α) (key other : κ) (value : α) :
    (m.insert key value).get? other = if other = key then some value else m.get? other :=
  lookupEntry_insertEntry ..

/-- Maps that answer every lookup alike are equal. -/
theorem ext_get? {m n : OrderedMap κ α} (h : ∀ key, m.get? key = n.get? key) : m = n := by
  have hperm : m.toList.Perm n.toList := by
    rw [List.perm_ext_iff_of_nodup]
    · rintro ⟨k, v⟩
      rw [← get?_eq_some_iff, ← get?_eq_some_iff, h]
    · exact m.ascending.imp fun hlt heq => by simp [heq] at hlt
    · exact n.ascending.imp fun hlt heq => by simp [heq] at hlt
  have heq := hperm.eq_of_pairwise (fun a b _ _ hab hba => by
    have := Std.TransCmp.lt_trans hab hba
    simp at this) m.ascending n.ascending
  obtain ⟨entries, _⟩ := m
  obtain ⟨_, _⟩ := n
  subst heq
  rfl

end OrderedMap

end RowSync
