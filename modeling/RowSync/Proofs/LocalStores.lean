import RowSync.LocalTables
import RowSync.Proofs.HybridClock
import RowSync.Proofs.PlainTables

/-!
# Local Tables in Memory

Local tables in memory are kept as timestamped rows with an index and a clock for each scope, and
scopes without rows are dropped. None of it shows: a table mirrors a map of fields
(`Table.Mirrors`), what is read of it is what the map has, and writing and removing a row keeps the
two alike. So every call is answered as by plain tables (`LocalTables.Mirrors.step`), as long as the
clocks have timestamps left for the calls to come.
-/

namespace RowSync

namespace Table

variable {room : Nat} {table : Table} {fields : OrderedMap RowId Payload} {row : Row} {id : RowId}

/-- The table shows the fields of the map, and its clock can assign some more timestamps. -/
structure Mirrors (room : Nat) (table : Table) (fields : OrderedMap RowId Payload) : Prop where
  /-- All rows are live, and they are those of the map. -/
  shown : ∀ id, (table.get? id).map (fun row => (row.flatten, row.isLive)) =
    (fields.get? id).map fun kept => (⟨id, kept⟩, true)
  /-- The clock is not too close to the largest timestamp. -/
  clock : table.highWater.toNat + room ≤ maxTimestamp.toNat

/-! ## Reads -/

/-- What a row of the table shows. -/
theorem Mirrors.of_get? (h : table.Mirrors room fields) (hget : table.get? id = some row) :
    row.isLive ∧ ∃ kept, fields.get? id = some kept ∧ row.flatten = ⟨id, kept⟩ := by
  have hshown := h.shown id
  rw [hget, Option.map_some] at hshown
  obtain ⟨kept, hkept, heq⟩ := Option.map_eq_some_iff.1 hshown.symm
  obtain ⟨hflat, hlive⟩ := Prod.ext_iff.1 heq
  exact ⟨hlive.symm, kept, hkept, hflat.symm⟩

theorem Mirrors.get?_eq_none_iff (h : table.Mirrors room fields) :
    table.get? id = none ↔ fields.get? id = none := by
  rw [← Option.map_eq_none_iff, h.shown, Option.map_eq_none_iff]

/-- The flat form of the row with an id is that of the map. -/
theorem Mirrors.flatten_getLive? (h : table.Mirrors room fields) (id : RowId) :
    (table.getLive? id).map Row.flatten = (fields.get? id).map fun kept => ⟨id, kept⟩ := by
  rw [getLive?]
  cases hget : table.get? id with
  | none => rw [h.get?_eq_none_iff.1 hget]; rfl
  | some row =>
    obtain ⟨hlive, kept, hkept, hflat⟩ := h.of_get? hget
    rw [hkept, Option.filter_some, if_pos hlive, Option.map_some, Option.map_some, hflat]

/-- The map of the fields that the rows show is the one that is mirrored. -/
theorem Mirrors.mapValues_eq (h : table.Mirrors room fields) :
    table.rows.mapValues (fun row => row.flatten.fields) = fields := by
  refine OrderedMap.ext_get? fun id => ?_
  have hshown := congrArg (Option.map fun shown : FlatRow × Bool => shown.1.fields) (h.shown id)
  simp only [Option.map_map, Function.comp_def, Option.map_id'] at hshown
  rw [OrderedMap.get?_mapValues]
  exact hshown

/-- The rows are listed as the map has them, in the order of their ids. -/
theorem Mirrors.flatten_liveRows (h : table.Mirrors room fields) :
    table.liveRows.map Row.flatten = fields.toList.map fun entry => ⟨entry.1, entry.2⟩ := by
  have hrow {entry : RowId × Row} (hentry : entry ∈ table.rows.toList) :
      entry.2.isLive ∧ entry.2.flatten = ⟨entry.1, entry.2.flatten.fields⟩ := by
    obtain ⟨hlive, kept, -, hflat⟩ := h.of_get? (OrderedMap.get?_eq_some_iff.2 hentry)
    exact ⟨hlive, by rw [hflat]⟩
  have hall : table.liveRows = table.rows.values := by
    refine List.filter_eq_self.2 fun row hmem => ?_
    obtain ⟨entry, hentry, rfl⟩ := List.mem_map.1 hmem
    exact (hrow hentry).1
  rw [hall, ← h.mapValues_eq, OrderedMap.toList_mapValues, OrderedMap.values, List.map_map,
    List.map_map]
  exact List.map_congr_left fun entry hentry => (hrow hentry).2

theorem Mirrors.totalCount_eq (h : table.Mirrors room fields) : table.totalCount = fields.size := by
  rw [← h.mapValues_eq, OrderedMap.size, OrderedMap.toList_mapValues, List.length_map]
  rfl

/-! ## Writes -/

/-- The table of a scope that is not kept mirrors the map without entries. -/
theorem mirrors_empty (h : room ≤ maxTimestamp.toNat) : (∅ : Table).Mirrors room ∅ := by
  refine ⟨fun id => rfl, ?_⟩
  have hzero : (∅ : Table).highWater.toNat = 0 := rfl
  omega

/-- Fewer calls to come ask for less room. -/
theorem Mirrors.mono (h : table.Mirrors (room + 1) fields) : table.Mirrors room fields := by
  have hclock := h.clock
  exact ⟨h.shown, by omega⟩

/-- Writing a live row puts its payload in the map. -/
theorem Mirrors.commitRow (h : table.Mirrors (room + 1) fields) (hlive : row.isLive)
    (hfree : row.payload.IsIdFree) (htime : row.modifiedAt.toNat + room ≤ maxTimestamp.toNat) :
    (table.commitRow row).Mirrors room (fields.insert row.id row.payload) where
  shown id := by
    rw [get?_commitRow, OrderedMap.get?_insert]
    split
    · rename_i hid
      rw [Option.map_some, Option.map_some, hlive, Row.flatten, hfree.erase_eq, hid]
    · exact h.shown id
  clock := by
    have hclock := h.clock
    rw [highWater_commitRow, Timestamp.toNat_max]
    omega

/-- Removing a row takes its id out of the map, and the clock stays as it is. -/
theorem Mirrors.remove (h : table.Mirrors room fields) (id : RowId) :
    (table.remove id).Mirrors room (fields.erase id) where
  shown other := by
    rw [get?_remove, OrderedMap.get?_erase]
    split
    · rfl
    · exact h.shown other
  clock := by
    have hsame : (table.remove id).highWater = table.highWater := by
      rw [Table.remove]
      split <;> rfl
    rw [hsame]
    exact h.clock

/-- Writing a payload in a transaction on the table writes a live row with it. -/
theorem Mirrors.upsert_start (h : table.Mirrors (room + 1) fields) {now : Timestamp}
    (hnow : now.toNat + room ≤ maxTimestamp.toNat) (id : RowId) {payload : Payload}
    (hfree : payload.IsIdFree) :
    ∃ row txn, (Transaction.start table now).upsert id payload none = .ok (row, txn) ∧
      row.flatten = ⟨id, payload⟩ ∧
      txn.commit.Mirrors room (fields.insert id payload) := by
  have hclock := h.clock
  have hlt : table.clock.highWater < maxTimestamp := by
    rw [UInt64.lt_iff_toNat_lt]
    have hmark : table.highWater = table.clock.highWater := rfl
    rw [hmark] at hclock
    omega
  -- The timestamp is the wall clock or the successor of the mark, both of which leave room.
  have htime : (table.clock.next now).toNat + room ≤ maxTimestamp.toNat := by
    have hmark : table.highWater = table.clock.highWater := rfl
    rw [hmark] at hclock
    rw [HybridClock.toNat_next hlt]
    omega
  have htick : (Transaction.start table now).tick none =
      .ok (table.clock.next now, ⟨table, ∅, ⟨table.clock.next now⟩, now⟩) := by
    show ((table.clock.tick now) >>= _) = _
    rw [HybridClock.tick_of_lt hlt]
    rfl
  -- Whether there is a row before or not, the one that is staged has the id and the payload.
  have hstaged (row : Row) (hid : row.id = id) (hpayload : row.payload = payload)
      (hlive : row.isLive) (hrow : row.modifiedAt = table.clock.next now) :
      row.flatten = ⟨id, payload⟩ ∧
        ((⟨table, ∅, ⟨table.clock.next now⟩, now⟩ : Transaction).stage row).commit.Mirrors room
          (fields.insert id payload) := by
    subst hid hpayload
    rw [← hrow] at htime
    exact ⟨by rw [Row.flatten, hfree.erase_eq], h.commitRow hlive hfree htime⟩
  rw [Transaction.upsert, htick]
  cases hget : table.get? id with
  | none =>
    have hfound : (⟨table, ∅, ⟨table.clock.next now⟩, now⟩ : Transaction).get? id = none := hget
    refine ⟨_, _, rfl, ?_⟩
    simp only [hfound]
    exact hstaged (.create id payload _) rfl rfl rfl rfl
  | some row =>
    have hfound : (⟨table, ∅, ⟨table.clock.next now⟩, now⟩ : Transaction).get? id = some row := hget
    obtain ⟨-, kept, -, hflat⟩ := h.of_get? hget
    refine ⟨_, _, rfl, ?_⟩
    simp only [hfound]
    exact hstaged (row.update payload _) (congrArg FlatRow.id hflat) rfl rfl rfl

end Table

namespace LocalTables

variable {room : Nat} {store : Store} {tables : PlainTables} {scope : Scope} {act : LocalAct}

/-- Answer a call as a backend does. -/
def step (store : Store) (act : LocalAct) : Except CallError LocalReply × Store :=
  ((perform store act.scope act.now act.call).1.mapError .refused,
    (perform store act.scope act.now act.call).2)

/-- The tables of all scopes mirror the maps. -/
def Mirrors (room : Nat) (store : Store) (tables : PlainTables) : Prop :=
  ∀ scope, (store.table scope).Mirrors room (tables scope)

theorem mirrors_empty (h : room ≤ maxTimestamp.toNat) : Mirrors room ∅ PlainTables.empty :=
  fun _ => Table.mirrors_empty h

/-- Putting a table back that mirrors a map puts the map in place. -/
theorem Mirrors.settle (h : Mirrors room store tables) {table : Table}
    {fields : OrderedMap RowId Payload} (htable : table.Mirrors room fields) (scope : Scope) :
    Mirrors room (store.settle scope table) (Function.update tables scope fields) := by
  refine Store.forall_table_settle
    (fun other table => table.Mirrors room (Function.update tables scope fields other))
    ?htable ?hempty ?hothers
  case htable => rwa [Function.update_self]
  case hempty =>
    -- A table without rows is dropped, and with it only its clock.
    intro hempty
    have hrows : table.rows = ∅ := OrderedMap.isEmpty_iff.1 hempty
    rw [Function.update_self]
    refine ⟨fun id => ?_, ?_⟩
    · have hnone : table.get? id = none := by rw [Table.get?, hrows]; rfl
      rw [htable.get?_eq_none_iff.1 hnone]
      rfl
    · exact (Table.mirrors_empty (Nat.le_of_add_left_le htable.clock)).clock
  case hothers =>
    intro other hother
    rw [Function.update_of_ne hother]
    exact h other

/-- Removing a row takes its id out of the map of its scope, and tells whether it was there. -/
theorem Mirrors.delete (h : Mirrors room store tables) (scope : Scope) {id : RowId}
    (hvalid : checkRowId id = .ok ()) :
    (delete store scope id).1 = (tables.row scope id).map (fun _ => ()) ∧
      Mirrors room (delete store scope id).2
        (Function.update tables scope ((tables scope).erase id)) := by
  have hscope := h scope
  have hremove := hscope.remove id
  rw [LocalTables.delete, Store.remove, hvalid]
  simp only [Store.guarded, mapReply, PlainTables.row]
  cases htable : store.tables.get? scope with
  | none =>
    -- The scope is not kept, so that there is nothing to remove.
    have hempty : store.table scope = ∅ := by rw [Store.table, htable]; rfl
    have hnone : (tables scope).get? id = none := by
      rw [← hscope.get?_eq_none_iff, hempty]
      rfl
    rw [hnone]
    refine ⟨rfl, fun other => ?_⟩
    by_cases hother : other = scope
    · subst hother
      rw [Function.update_self, hempty]
      rw [hempty] at hremove
      exact hremove
    · rw [Function.update_of_ne hother]
      exact h other
  | some table =>
    have hsame : store.table scope = table := by rw [Store.table, htable]; rfl
    rw [hsame] at hscope hremove
    dsimp only
    cases hget : table.get? id with
    | none =>
      rw [hscope.get?_eq_none_iff.1 hget]
      exact ⟨rfl, h.settle hremove scope⟩
    | some row =>
      obtain ⟨-, kept, hkept, -⟩ := hscope.of_get? hget
      rw [hkept]
      exact ⟨rfl, h.settle hremove scope⟩

/-- A proper call is answered as by the maps, which the tables then mirror, if the clocks and the
wall clock leave room for its timestamp. -/
theorem Mirrors.step (h : Mirrors (room + 1) store tables) (hproper : act.call.IsProper)
    (hnow : act.now.toNat + room ≤ maxTimestamp.toNat) :
    (LocalTables.step store act).1 = (tables.step act).1 ∧
      Mirrors room (LocalTables.step store act).2 (tables.step act).2 := by
  obtain ⟨now, scope, call⟩ := act
  have hscope := h scope
  have hkept : Mirrors room store tables := fun other => (h other).mono
  cases call with
  | rows =>
    refine ⟨?_, hkept⟩
    have hrows : rows store scope = _ := hscope.flatten_liveRows
    simp only [LocalTables.step, perform, PlainTables.step, PlainTables.perform, hrows]
  | row id =>
    have hvalid : checkRowId id = .ok () := hproper
    refine ⟨?_, hkept⟩
    have hrow : row store scope id = tables.row scope id := by
      have hget := hscope.flatten_getLive? id
      rw [LocalTables.row, Store.get, hvalid, PlainTables.row]
      cases hfields : (tables scope).get? id with
      | none =>
        rw [hfields, Option.map_none, Option.map_eq_none_iff] at hget
        simp only [bind, Except.bind, hget]
        rfl
      | some kept =>
        rw [hfields, Option.map_some, Option.map_eq_some_iff] at hget
        obtain ⟨row, hlive, hflat⟩ := hget
        simp only [bind, Except.bind, hlive]
        exact congrArg Except.ok hflat
    simp only [LocalTables.step, perform, PlainTables.step, PlainTables.perform, hrow]
  | put given =>
    obtain ⟨hvalid, hfree⟩ := hproper
    obtain ⟨row, txn, hupsert, hflat, hcommit⟩ := hscope.upsert_start hnow given.id hfree
    have hput : put store scope now given = (.ok given, store.settle scope txn.commit) := by
      rw [put, Store.upsert, hvalid]
      simp only [Store.guarded, Store.transact, hupsert, mapReply, Except.map, hflat]
    simp only [LocalTables.step, perform, PlainTables.step, PlainTables.perform, hput, mapReply]
    exact ⟨rfl, hkept.settle hcommit scope⟩
  | delete id =>
    have hvalid : checkRowId id = .ok () := hproper
    obtain ⟨hdeleted, hafter⟩ := hkept.delete scope hvalid
    simp only [LocalTables.step, perform, PlainTables.step, PlainTables.perform, mapReply, hdeleted]
    refine ⟨?_, hafter⟩
    cases tables.row scope id <;> rfl

/-- The tables mirror the maps, and there is room for the timestamps of the proper calls to come. -/
structure MirrorsBefore (acts : List LocalAct) (store : Store) (tables : PlainTables) : Prop where
  /-- The calls to come are proper. -/
  proper : ∀ act ∈ acts, act.call.IsProper
  /-- The wall clock leaves room for a timestamp for each of them. -/
  clock : ∀ act ∈ acts, act.now.toNat + acts.length ≤ maxTimestamp.toNat
  /-- The tables mirror the maps, and leave room, too. -/
  mirrors : Mirrors acts.length store tables

theorem MirrorsBefore.step {act : LocalAct} {rest : List LocalAct}
    (h : MirrorsBefore (act :: rest) store tables) :
    (LocalTables.step store act).1 = (tables.step act).1 ∧
      MirrorsBefore rest (LocalTables.step store act).2 (tables.step act).2 := by
  obtain ⟨hproper, hclock, hmirrors⟩ := h
  have hnow := hclock act List.mem_cons_self
  rw [List.length_cons] at hnow
  obtain ⟨hanswer, hafter⟩ := hmirrors.step (hproper act List.mem_cons_self) (by omega)
  refine ⟨hanswer, fun other hother => hproper other (List.mem_cons_of_mem act hother), ?_, hafter⟩
  intro other hother
  have hlater := hclock other (List.mem_cons_of_mem act hother)
  rw [List.length_cons] at hlater
  omega

/-- Proper calls, however many, are answered as by the maps, if every time leaves room for one
timestamp for each of the calls. -/
theorem mirrors_runAll {acts : List LocalAct} (hproper : ∀ act ∈ acts, act.call.IsProper)
    (hclock : ∀ act ∈ acts, act.now.toNat + acts.length ≤ maxTimestamp.toNat) :
    (runAll step ∅ acts).1 = (runAll PlainTables.step PlainTables.empty acts).1 ∧
      Mirrors 0 (runAll step ∅ acts).2 (runAll PlainTables.step PlainTables.empty acts).2 := by
  have hroom : acts.length ≤ maxTimestamp.toNat := by
    cases acts with
    | nil => exact Nat.zero_le _
    | cons act rest => exact Nat.le_of_add_left_le (hclock act List.mem_cons_self)
  have hstart : MirrorsBefore acts ∅ PlainTables.empty := ⟨hproper, hclock, mirrors_empty hroom⟩
  obtain ⟨hanswers, hlast⟩ := runAll_alike MirrorsBefore MirrorsBefore.step hstart
  exact ⟨hanswers, hlast.mirrors⟩

end LocalTables

end RowSync
