import Mathlib.Data.List.Induction
import Mathlib.Data.String.Basic
import RowSync.Proofs.ChangeLog
import RowSync.Proofs.OrderedMap

/-!
# The Last State of Each Row Written

What is left of rows that are written in whatever order and at whatever times, also of lists that no
transaction writes: of each id the row with the latest timestamp, and the earliest of them if there
are several (`IsLastState`). They stand in the strict order of their timestamps and then of their ids,
which determines the list from the rows in it (`ChangeOrdered.eq_of_mem_iff`).

Main statement: `last_states_of_rows`.
-/

namespace RowSync

/-! ## Strict change order -/

/-- The first row was written earlier, or at the same time under a smaller id. -/
def Row.Precedes (a b : Row) : Prop :=
  a.modifiedAt < b.modifiedAt ∨ (a.modifiedAt = b.modifiedAt ∧ a.id < b.id)

/-- A row precedes another one just if its change key is the smaller one. -/
theorem Row.precedes_iff {a b : Row} :
    a.Precedes b ↔ compare a.changeKey b.changeKey = .lt := by
  have hkey : compare a.changeKey b.changeKey =
      (compare a.modifiedAt b.modifiedAt).then (compare a.id b.id) := rfl
  rw [hkey, Ordering.then_eq_lt, Std.compare_eq_lt, Std.LawfulEqOrd.compare_eq_iff_eq,
    compare_lt_iff_lt]
  rfl

/-- The rows stand in the order of their timestamps, and then of their ids. -/
def ChangeOrdered (rows : List Row) : Prop := rows.Pairwise Row.Precedes

/-- Lists in strict change order that hold the same rows are equal. -/
theorem ChangeOrdered.eq_of_mem_iff {rows others : List Row} (hrows : ChangeOrdered rows)
    (hothers : ChangeOrdered others) (h : ∀ row, row ∈ rows ↔ row ∈ others) : rows = others := by
  -- Of two rows only one precedes the other, which leaves just one order for them.
  have hasymm {a b : Row} (hab : a.Precedes b) (hba : b.Precedes a) : False := by
    rw [Row.precedes_iff] at hab hba
    have := Std.OrientedCmp.gt_of_lt hab
    simp [this] at hba
  have : Std.Irrefl Row.Precedes := ⟨fun a ha => hasymm ha ha⟩
  have : Std.Antisymm Row.Precedes := ⟨fun a b hab hba => (hasymm hab hba).elim⟩
  exact List.Pairwise.eq_of_mem_iff hrows hothers h

/-- Rows with different ids are put in strict change order. -/
theorem changeOrdered_inChangeOrder {rows : List Row} (hids : (rows.map Row.id).Nodup) :
    ChangeOrdered (inChangeOrder rows) := by
  have hids' : (inChangeOrder rows).Pairwise fun a b => a.id ≠ b.id :=
    (List.mergeSort_perm rows _).symm.pairwise (List.pairwise_map.1 hids) fun h => h.symm
  refine (pairwise_inChangeOrder rows).imp₂ (fun a b hle hne => ?_) hids'
  rw [Row.precedes_iff]
  -- Keys of rows with different ids are not equal.
  rcases Ordering.isLE_iff_eq_lt_or_eq_eq.1 hle with hlt | heq
  · exact hlt
  · exact absurd (congrArg ChangeKey.id (Std.LawfulEqOrd.eq_of_compare heq)) hne

/-! ## Rows as they are noted -/

/-- The row is one of those written, no row with its id has a later timestamp, and none that was
written before it has the same. -/
def IsLastState (written : List Row) (row : Row) : Prop :=
  ∃ before after, written = before ++ row :: after ∧
    (∀ other ∈ before, other.id = row.id → other.modifiedAt < row.modifiedAt) ∧
    ∀ other ∈ after, other.id = row.id → other.modifiedAt ≤ row.modifiedAt

namespace IsLastState

variable {written : List Row} {row : Row}

theorem mem (h : IsLastState written row) : row ∈ written := by
  obtain ⟨before, after, rfl, -, -⟩ := h
  simp

/-- No row with the same id has a later timestamp. -/
theorem le (h : IsLastState written row) {other : Row} (hother : other ∈ written)
    (hid : other.id = row.id) : other.modifiedAt ≤ row.modifiedAt := by
  obtain ⟨before, after, rfl, hbefore, hafter⟩ := h
  rcases List.mem_append.1 hother with hmem | hmem
  · exact UInt64.le_of_lt (hbefore other hmem hid)
  · rcases List.mem_cons.1 hmem with rfl | hmem
    · exact UInt64.le_refl _
    · exact hafter other hmem hid

end IsLastState

variable {written : List Row} {row next : Row} {id : RowId}

/-- A row that is written last is a last state if it is later than all others with its id, and a
last state stays one unless such a row is written. -/
theorem isLastState_concat_iff : IsLastState (written ++ [next]) row ↔
    (row = next ∧ ∀ other ∈ written, other.id = next.id → other.modifiedAt < next.modifiedAt) ∨
      (IsLastState written row ∧ (next.id = row.id → next.modifiedAt ≤ row.modifiedAt)) := by
  constructor
  · rintro ⟨before, after, heq, hbefore, hafter⟩
    -- Either the row is the one written last, or that one is among those after it.
    rcases List.eq_nil_or_concat after with rfl | ⟨after, last, rfl⟩
    · obtain ⟨rfl, hlast⟩ := List.append_inj' heq rfl
      cases hlast
      exact .inl ⟨rfl, hbefore⟩
    · have heq' : written ++ [next] = (before ++ row :: after) ++ [last] := by simpa using heq
      obtain ⟨rfl, hlast⟩ := List.append_inj' heq' rfl
      cases hlast
      refine .inr ⟨⟨before, after, rfl, hbefore, fun other hother => ?_⟩, ?_⟩
      · exact hafter other (by simp [hother])
      · exact hafter next (by simp)
  · rintro (⟨rfl, hlater⟩ | ⟨⟨before, after, rfl, hbefore, hafter⟩, hnext⟩)
    · exact ⟨written, [], rfl, hlater, by simp⟩
    · refine ⟨before, after ++ [next], by simp, hbefore, fun other hother => ?_⟩
      rcases List.mem_append.1 hother with hmem | hmem
      · exact hafter other hmem
      · obtain rfl := List.mem_singleton.1 hmem
        exact hnext

/-- A row is noted over one that is earlier, and leaves all other rows as they were noted. -/
theorem get?_noteWritten (latest : OrderedMap RowId Row) (row : Row) (id : RowId) :
    (noteWritten latest row).get? id =
      if id = row.id ∧ ∀ noted ∈ latest.get? id, noted.modifiedAt < row.modifiedAt then some row
      else latest.get? id := by
  rw [noteWritten]
  by_cases hid : id = row.id
  · subst hid
    cases hget : latest.get? row.id with
    | none => simp
    | some noted =>
      by_cases hle : row.modifiedAt ≤ noted.modifiedAt
      · simp [hle, hget]
      · simp [hle, UInt64.not_le.1 hle]
  · cases hget : latest.get? row.id with
    | none => simp [hid]
    | some noted => by_cases hle : row.modifiedAt ≤ noted.modifiedAt <;> simp [hle, hid]

/-- The rows of a list, noted one after the other. -/
def notedRows (written : List Row) : OrderedMap RowId Row := written.foldl noteWritten ∅

theorem notedRows_concat (written : List Row) (next : Row) :
    notedRows (written ++ [next]) = noteWritten (notedRows written) next := by
  simp [notedRows]

/-- Some row is noted for each id that is written, and for no other. -/
theorem get?_notedRows_eq_none_iff :
    (notedRows written).get? id = none ↔ ∀ row ∈ written, row.id ≠ id := by
  induction written using List.reverseRecOn with
  | nil => simp [notedRows]
  | append_singleton written next ih =>
    rw [notedRows_concat, get?_noteWritten, List.forall_mem_append, List.forall_mem_singleton, ← ih]
    by_cases hid : id = next.id
    · subst hid
      -- The row is noted, or it gives way to one that was.
      cases hget : (notedRows written).get? next.id with
      | none => simp
      | some noted => by_cases hlt : noted.modifiedAt < next.modifiedAt <;> simp [hlt]
    · simp [hid, Ne.symm hid]

/-- Noted are the last states of the rows, under their ids. -/
theorem get?_notedRows_eq_some_iff :
    (notedRows written).get? id = some row ↔ row.id = id ∧ IsLastState written row := by
  induction written using List.reverseRecOn generalizing id row with
  | nil =>
    have hnone : ¬IsLastState [] row := fun h => by simpa using h.mem
    simp [notedRows, hnone]
  | append_singleton written next ih =>
    -- What was noted for the id of the next row is as late as any row with that id.
    have hlater : (∀ noted ∈ (notedRows written).get? next.id,
          noted.modifiedAt < next.modifiedAt) ↔
        ∀ other ∈ written, other.id = next.id → other.modifiedAt < next.modifiedAt := by
      constructor
      · intro h other hother hid
        cases hget : (notedRows written).get? next.id with
        | none => exact absurd hid (get?_notedRows_eq_none_iff.1 hget other hother)
        | some noted =>
          obtain ⟨hnoted, hlast⟩ := ih.1 hget
          exact UInt64.lt_of_le_of_lt (hlast.le hother (hid.trans hnoted.symm)) (h noted hget)
      · intro h noted hget
        obtain ⟨hnoted, hlast⟩ := ih.1 hget
        exact h noted hlast.mem hnoted
    rw [notedRows_concat, get?_noteWritten, isLastState_concat_iff, ← hlater]
    by_cases hid : id = next.id
    · subst hid
      by_cases hall : ∀ noted ∈ (notedRows written).get? next.id, noted.modifiedAt < next.modifiedAt
      · rw [if_pos ⟨rfl, hall⟩]
        constructor
        · rintro ⟨⟩
          exact ⟨rfl, .inl ⟨rfl, hall⟩⟩
        · rintro ⟨hrow, ⟨rfl, -⟩ | ⟨hlast, hle⟩⟩
          · rfl
          · -- A last state of before would be noted, and is earlier than the next row.
            have hlt := hall row (ih.2 ⟨hrow, hlast⟩)
            exact absurd (hle hrow.symm) (UInt64.not_le.2 hlt)
      · rw [if_neg fun h => hall h.2, ih]
        have hge {noted : Row} (hnoted : (notedRows written).get? next.id = some noted) :
            next.modifiedAt ≤ noted.modifiedAt := by
          refine UInt64.not_lt.1 fun hlt => hall fun found hfound => ?_
          rw [hnoted] at hfound
          cases hfound
          exact hlt
        constructor
        · rintro ⟨hrow, hlast⟩
          exact ⟨hrow, .inr ⟨hlast, fun _ => hge (ih.2 ⟨hrow, hlast⟩)⟩⟩
        · rintro ⟨hrow, ⟨-, h⟩ | ⟨hlast, -⟩⟩
          · exact absurd h hall
          · exact ⟨hrow, hlast⟩
    · rw [if_neg fun h => hid h.1, ih]
      constructor
      · rintro ⟨rfl, hlast⟩
        exact ⟨rfl, .inr ⟨hlast, fun h => absurd h.symm hid⟩⟩
      · rintro ⟨rfl, ⟨rfl, -⟩ | ⟨hlast, -⟩⟩
        · exact absurd rfl hid
        · exact ⟨rfl, hlast⟩

/-! ## The last states -/

theorem mem_lastWritten_iff : row ∈ lastWritten written ↔ IsLastState written row := by
  have hkeyed {id : RowId} {row : Row} (hget : (notedRows written).get? id = some row) :
      row.id = id := (get?_notedRows_eq_some_iff.1 hget).1
  rw [lastWritten, mem_inChangeOrder]
  show row ∈ (notedRows written).values ↔ _
  rw [OrderedMap.mem_values_iff_of_keyed hkeyed, get?_notedRows_eq_some_iff]
  simp

/-- The last states have different ids. -/
theorem nodup_ids_lastWritten (written : List Row) : ((lastWritten written).map Row.id).Nodup := by
  have hnoted : ((notedRows written).values.map Row.id).Nodup :=
    OrderedMap.nodup_map_values fun hget => (get?_notedRows_eq_some_iff.1 hget).1
  exact ((List.mergeSort_perm _ _).map Row.id).nodup_iff.2 hnoted

theorem changeOrdered_lastWritten (written : List Row) : ChangeOrdered (lastWritten written) :=
  changeOrdered_inChangeOrder
    (OrderedMap.nodup_map_values fun hget => (get?_notedRows_eq_some_iff.1 hget).1)

/-- The last states have the ids of the rows written. -/
theorem mem_ids_lastWritten_iff :
    id ∈ (lastWritten written).map Row.id ↔ id ∈ written.map Row.id := by
  constructor
  · intro h
    obtain ⟨row, hrow, rfl⟩ := List.mem_map.1 h
    exact List.mem_map_of_mem (mem_lastWritten_iff.1 hrow).mem
  · intro h
    obtain ⟨row, hrow, rfl⟩ := List.mem_map.1 h
    cases hget : (notedRows written).get? row.id with
    | none => exact absurd rfl (get?_notedRows_eq_none_iff.1 hget row hrow)
    | some noted =>
      obtain ⟨hid, hlast⟩ := get?_notedRows_eq_some_iff.1 hget
      exact hid ▸ List.mem_map_of_mem (mem_lastWritten_iff.2 hlast)

/-- Of rows with different change keys, the last states are those that are as late as any with
their id, in whatever order the rows were written. -/
theorem isLastState_iff_of_nodup (hkeys : (written.map Row.changeKey).Nodup) :
    IsLastState written row ↔ row ∈ written ∧
      ∀ other ∈ written, other.id = row.id → other.modifiedAt ≤ row.modifiedAt := by
  constructor
  · exact fun h => ⟨h.mem, fun other hother hid => h.le hother hid⟩
  · rintro ⟨hrow, hle⟩
    obtain ⟨before, after, rfl⟩ := List.append_of_mem hrow
    refine ⟨before, after, rfl, fun other hother hid => ?_, fun other hother hid => ?_⟩
    · -- A row before it with the same id has another key, hence another time.
      refine UInt64.lt_of_le_of_ne (hle other (by simp [hother]) hid) fun htime => ?_
      have hkey : other.changeKey = row.changeKey := by simp [Row.changeKey, htime, hid]
      rw [List.map_append, List.map_cons, List.nodup_append] at hkeys
      exact hkeys.2.2 _ (List.mem_map_of_mem hother) _ (by simp) hkey
    · exact hle other (by simp [hother]) hid

/-- Doing it again changes nothing. -/
theorem lastWritten_lastWritten (written : List Row) :
    lastWritten (lastWritten written) = lastWritten written := by
  refine (changeOrdered_lastWritten _).eq_of_mem_iff (changeOrdered_lastWritten _) fun row => ?_
  have hids := nodup_ids_lastWritten written
  have hkeys : ((lastWritten written).map Row.changeKey).Nodup :=
    List.pairwise_map.2 ((List.pairwise_map.1 hids).imp fun hne hkey =>
      hne (congrArg ChangeKey.id hkey))
  rw [mem_lastWritten_iff, isLastState_iff_of_nodup hkeys]
  refine ⟨fun h => h.1, fun h => ⟨h, fun other hother hid => ?_⟩⟩
  -- There is no other row with the same id.
  rw [List.inj_on_of_nodup_map hids hother h hid]
  exact UInt64.le_refl _

/-- Rows with different change keys leave the same last states in whatever order they are
written. -/
theorem lastWritten_perm {others : List Row} (hperm : written.Perm others)
    (hkeys : (written.map Row.changeKey).Nodup) : lastWritten others = lastWritten written := by
  refine (changeOrdered_lastWritten _).eq_of_mem_iff (changeOrdered_lastWritten _) fun row => ?_
  have hkeys' : (others.map Row.changeKey).Nodup := (hperm.map _).nodup_iff.1 hkeys
  rw [mem_lastWritten_iff, mem_lastWritten_iff, isLastState_iff_of_nodup hkeys,
    isLastState_iff_of_nodup hkeys']
  simp only [hperm.mem_iff]

/-- Whatever rows are written, in whatever order and with whatever timestamps, what is left of them
has each of their ids once and no other. It is for each id the earliest row of those with the latest
timestamp, in the strict order of timestamps and ids. Nothing changes if this is done again. If no
id is written twice at the same time, the order of writing does not matter. -/
theorem last_states_of_rows (written : List Row) :
    ((lastWritten written).map Row.id).Nodup ∧
    (∀ id, id ∈ (lastWritten written).map Row.id ↔ id ∈ written.map Row.id) ∧
    (∀ row, row ∈ lastWritten written ↔ ∃ before after, written = before ++ row :: after ∧
      (∀ other ∈ before, other.id = row.id → other.modifiedAt < row.modifiedAt) ∧
      ∀ other ∈ after, other.id = row.id → other.modifiedAt ≤ row.modifiedAt) ∧
    ((lastWritten written).Pairwise fun a b =>
      a.modifiedAt < b.modifiedAt ∨ (a.modifiedAt = b.modifiedAt ∧ a.id < b.id)) ∧
    lastWritten (lastWritten written) = lastWritten written ∧
    ∀ others, written.Perm others →
      written.Pairwise (fun a b => ¬(a.id = b.id ∧ a.modifiedAt = b.modifiedAt)) →
      lastWritten others = lastWritten written := by
  refine ⟨nodup_ids_lastWritten written, fun id => mem_ids_lastWritten_iff,
    fun row => mem_lastWritten_iff, changeOrdered_lastWritten written,
    lastWritten_lastWritten written, fun others hperm hdistinct => lastWritten_perm hperm ?_⟩
  refine List.pairwise_map.2 (hdistinct.imp fun hne hkey => hne ?_)
  exact ⟨congrArg ChangeKey.id hkey, congrArg ChangeKey.time hkey⟩

/-- A state of a row. -/
def sampleState : Row := ⟨"b", .ofMembers [("text", .str "first")], 1000, false⟩

/-- A later state of the row. -/
def laterState : Row := ⟨"b", .ofMembers [("text", .str "second")], 1001, true⟩

/-- Both states of the row, and another row that was written at the same time as the later one. -/
def sampleWritten : List Row :=
  [sampleState, laterState, ⟨"a", .ofMembers [("text", .str "other")], 1001, false⟩]

/-- The later state is left of the row that was written twice, also if the rows are written in the
opposite order. -/
theorem last_states_of_rows_sample :
    lastWritten sampleWritten.reverse = lastWritten sampleWritten ∧
      laterState ∈ lastWritten sampleWritten ∧ sampleState ∉ lastWritten sampleWritten := by
  obtain ⟨hnodup, -, hmem, -, -, hperm⟩ := last_states_of_rows sampleWritten
  have hlater : laterState ∈ lastWritten sampleWritten :=
    (hmem laterState).2 ⟨[sampleState], _, rfl, by decide, by decide⟩
  refine ⟨hperm _ (List.reverse_perm _).symm (by decide), hlater, fun hearlier => ?_⟩
  have hsame : sampleState = laterState :=
    List.inj_on_of_nodup_map hnodup hearlier hlater rfl
  exact absurd hsame (by decide)

end RowSync
