import Mathlib.Data.List.Sort
import RowSync.OrderedMap

/-!
# Listings of Ordered Maps

What the listings of an ordered map hold, and maps that are made from others: by applying a function
to all values (`mapValues`) and by writing all values of a list over those of a map (`insertAll`).
Listings stand in key order, so that what holds of entries with increasing keys holds of any two
values in a listing, one after the other (`pairwise_values`).
-/

namespace RowSync

universe u v w

variable {κ : Type u} {α : Type v} {β : Type w}

namespace OrderedMap

section Listings

variable [Ord κ] [Std.LawfulEqOrd κ] {m : OrderedMap κ α}

theorem mem_keys_iff {key : κ} : key ∈ m.keys ↔ ∃ value, m.get? key = some value := by
  simp [keys, get?_eq_some_iff]

theorem mem_values_iff {value : α} : value ∈ m.values ↔ ∃ key, m.get? key = some value := by
  simp [values, get?_eq_some_iff]

omit [Std.LawfulEqOrd κ] in
/-- The keys of a map increase. -/
theorem pairwise_keys : m.keys.Pairwise fun a b => compare a b = .lt :=
  List.pairwise_map.2 m.ascending

/-- Two entries of a map have different keys, the first one the smaller. -/
theorem pairwise_values {r : α → α → Prop}
    (h : ∀ {a b : κ} {x y : α}, m.get? a = some x → m.get? b = some y → compare a b = .lt → r x y) :
    m.values.Pairwise r := by
  refine List.pairwise_map.2 (m.ascending.imp_of_mem fun {a b} ha hb hlt => ?_)
  exact h (get?_eq_some_iff.2 ha) (get?_eq_some_iff.2 hb) hlt

omit [Std.LawfulEqOrd κ] in
theorem contains_eq_true_iff {key : κ} : m.contains key ↔ ∃ value, m.get? key = some value := by
  simp [contains, Option.isSome_iff_exists]

/-- Where values tell their keys, a value of the map is one found under the key it tells. -/
theorem mem_values_iff_of_keyed {f : α → κ} (h : ∀ {k v}, m.get? k = some v → f v = k) {value : α} :
    value ∈ m.values ↔ m.get? (f value) = some value := by
  rw [mem_values_iff]
  constructor
  · rintro ⟨key, hkey⟩
    rw [h hkey]
    exact hkey
  · intro hget
    exact ⟨f value, hget⟩

/-- Where values tell their keys, they all tell different ones. -/
theorem nodup_map_values {f : α → κ} (h : ∀ {k v}, m.get? k = some v → f v = k) :
    (m.values.map f).Nodup := by
  refine List.pairwise_map.2 (pairwise_values fun {a b x y} hx hy hlt heq => ?_)
  -- Equal keys would not increase.
  rw [h hx, h hy] at heq
  simp [heq] at hlt

/-- Of the entries with a key there is the one that is found under it, if there is one. -/
theorem filter_toList_eq [DecidableEq κ] (m : OrderedMap κ α) (key : κ) :
    m.toList.filter (fun entry => entry.1 = key) =
      ((m.get? key).map fun value => (key, value)).toList := by
  obtain ⟨entries, hascending⟩ := m
  show entries.filter _ = ((lookupEntry key entries).map _).toList
  induction entries with
  | nil => rfl
  | cons head rest ih =>
    obtain ⟨k, v⟩ := head
    obtain ⟨hhead, hrest⟩ := List.pairwise_cons.1 hascending
    by_cases hkey : k = key
    · -- The keys after the one that is found are greater.
      subst hkey
      have hnone : rest.filter (fun entry => entry.1 = k) = [] := by
        refine List.filter_eq_nil_iff.2 fun entry hentry heq => ?_
        have hlt := hhead entry hentry
        rw [of_decide_eq_true heq] at hlt
        simp at hlt
      rw [List.filter_cons_of_pos (by simp), hnone, lookupEntry, if_pos (by simp)]
      rfl
    · rw [List.filter_cons_of_neg (by simpa using hkey), ih hrest, lookupEntry,
        if_neg (by simpa using Ne.symm hkey)]

end Listings

/-! ## A function on all values -/

section MapValues

variable [Ord κ]

/-- Apply a function to every value. -/
def mapValues (f : α → β) (m : OrderedMap κ α) : OrderedMap κ β :=
  ⟨m.toList.map fun e => (e.1, f e.2), by simpa [Ascending, List.pairwise_map] using m.ascending⟩

@[simp]
theorem get?_mapValues (f : α → β) (m : OrderedMap κ α) (key : κ) :
    (m.mapValues f).get? key = (m.get? key).map f := by
  -- Both sides look at the keys only, which stay; that these increase does not matter.
  obtain ⟨entries, _⟩ := m
  show lookupEntry key (entries.map fun e => (e.1, f e.2)) = (lookupEntry key entries).map f
  clear * -
  induction entries with
  | nil => rfl
  | cons head rest ih =>
    simp only [List.map_cons, lookupEntry]
    split
    · rfl
    · exact ih

@[simp]
theorem toList_mapValues (f : α → β) (m : OrderedMap κ α) :
    (m.mapValues f).toList = m.toList.map fun e => (e.1, f e.2) := rfl

variable [Std.TransOrd κ] [Std.LawfulEqOrd κ] [DecidableEq κ]

theorem insert_mapValues (f : α → β) (m : OrderedMap κ α) (key : κ) (value : α) :
    (m.mapValues f).insert key (f value) = (m.insert key value).mapValues f := by
  refine ext_get? fun found => ?_
  rw [get?_insert, get?_mapValues, get?_mapValues, get?_insert]
  split <;> rfl

theorem erase_mapValues (f : α → β) (m : OrderedMap κ α) (key : κ) :
    (m.mapValues f).erase key = (m.erase key).mapValues f := by
  refine ext_get? fun found => ?_
  rw [get?_erase, get?_mapValues, get?_mapValues, get?_erase]
  split <;> rfl

end MapValues

/-! ## Many insertions -/

section InsertAll

variable [Ord κ] [Std.TransOrd κ] [Std.LawfulEqOrd κ]

/-- Put the values of a list under their keys, one after the other. -/
def insertAll (key : α → κ) (m : OrderedMap κ α) (values : List α) : OrderedMap κ α :=
  values.foldl (fun m value => m.insert (key value) value) m

variable [DecidableEq κ] {key : α → κ} {m : OrderedMap κ α} {values : List α}

/-- A key that belongs to none of the values put in is found as before. -/
theorem get?_insertAll_of_ne {k : κ} (h : ∀ value ∈ values, key value ≠ k) :
    (insertAll key m values).get? k = m.get? k := by
  induction values generalizing m with
  | nil => rfl
  | cons value rest ih =>
    have hne : k ≠ key value := (h value (by simp)).symm
    calc (insertAll key m (value :: rest)).get? k
        = (insertAll key (m.insert (key value) value) rest).get? k := rfl
      _ = (m.insert (key value) value).get? k := ih fun v hv => h v (by simp [hv])
      _ = m.get? k := by simp [hne]

/-- A value that is put in is found, if the keys of the values are all different. -/
theorem get?_insertAll_of_mem (hdistinct : (values.map key).Nodup) {value : α}
    (h : value ∈ values) : (insertAll key m values).get? (key value) = some value := by
  induction values generalizing m with
  | nil => simp at h
  | cons head rest ih =>
    obtain ⟨hhead, hrest⟩ := List.nodup_cons.1 hdistinct
    rcases List.mem_cons.1 h with rfl | h
    · -- The values after it have other keys, so it is not written over.
      have hother : ∀ v ∈ rest, key v ≠ key value := fun v hv heq =>
        hhead (heq ▸ List.mem_map_of_mem hv)
      show (insertAll key (m.insert (key value) value) rest).get? (key value) = _
      rw [get?_insertAll_of_ne hother]
      simp
    · exact ih hrest h

end InsertAll

end OrderedMap

end RowSync
