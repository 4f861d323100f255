import Mathlib.Logic.Function.Basic
import RowSync.Call
import RowSync.Proofs.Runs
import RowSync.Proofs.ScopeState.Writes
import RowSync.Wire

/-!
# Plain Tables

What a local table is to its clients: a map from row ids to fields for every scope, without clocks
and without traces of rows that were removed (`PlainTables.perform`). The calls that are measured by
it have valid ids and no field under the key of the id (`LocalCall.IsProper`). Flat rows that are
decoded have no such field (`FlatRow.isIdFree_of_decode`).
-/

namespace RowSync

/-! ## Fields beside the id -/

/-- No member of the payload stands under the key of the id. -/
def Payload.IsIdFree (payload : Payload) : Prop := idKey ∉ payload.members.map Prod.fst

instance (payload : Payload) : Decidable payload.IsIdFree :=
  inferInstanceAs (Decidable (idKey ∉ payload.members.map Prod.fst))

/-- A payload that has no member under the key of the id is flattened as it is. -/
theorem Payload.IsIdFree.erase_eq {payload : Payload} (h : payload.IsIdFree) :
    payload.erase idKey = payload := by
  refine Payload.ext (List.filter_eq_self.2 fun member hmember => ?_)
  have hne : idKey ≠ member.1 := fun heq => h (heq ▸ List.mem_map_of_mem hmember)
  simpa using hne

namespace Json

/-- Normalising members makes no new keys. -/
theorem mem_keys_of_normaliseMembers {key : String} {members : List (String × Json)}
    (h : key ∈ (normaliseMembers members).map Prod.fst) : key ∈ members.map Prod.fst := by
  induction members with
  | nil => simp [normaliseMembers] at h
  | cons head rest ih =>
    obtain ⟨k, v⟩ := head
    rw [normaliseMembers] at h
    rw [List.map_cons, List.mem_cons]
    split at h
    · exact .inr (ih h)
    · -- The member in front is put at its place among the others.
      obtain ⟨e, he, rfl⟩ := List.mem_map.1 h
      rcases mem_insertEntry he with rfl | he
      · exact .inl rfl
      · exact .inr (ih (List.mem_map_of_mem he))

/-- Members are read under the keys that they have. -/
theorem Decoder.keys_of_membersWith {read : String → Option Json}
    {outlines : List (Option String × Outline)} {members : List (String × Json)}
    (h : membersWith read outlines = .ok members) :
    members.map (fun member => some member.1) = outlines.map Prod.fst := by
  induction outlines generalizing members with
  | nil =>
    cases h
    rfl
  | cons head rest ih =>
    obtain ⟨key, outline⟩ := head
    cases key with
    | none => cases h
    | some key =>
      rw [membersWith] at h
      obtain ⟨value, -, h⟩ := bind_eq_ok_iff.1 h
      obtain ⟨others, hothers, h⟩ := bind_eq_ok_iff.1 h
      cases h
      rw [List.map_cons, List.map_cons, ih hothers]

/-- What is put aside are members of the record, none of which stands under the key. -/
theorem Decoder.mem_of_collect {α : Type} {key : String} {decoder : Decoder α}
    {found last : Option α} {members others : List (Option String × Outline)}
    (h : collect key decoder found members = .ok (last, others)) :
    ∀ member ∈ others, member ∈ members ∧ member.1 ≠ some key := by
  induction members generalizing found last others with
  | nil =>
    cases h
    simp
  | cons head rest ih =>
    obtain ⟨name, outline⟩ := head
    cases name with
    | none => cases h
    | some name =>
      unfold collect at h
      split at h
      · -- The member under the key is not put aside.
        split at h
        · cases h
        · obtain ⟨_, -, h⟩ := bind_eq_ok_iff.1 h
          exact fun member hmember => ⟨List.mem_cons_of_mem _ (ih h member hmember).1,
            (ih h member hmember).2⟩
      · rename_i hname
        obtain ⟨_, -, h⟩ := bind_eq_ok_iff.1 h
        obtain ⟨⟨last, others⟩, hothers, h⟩ := bind_eq_ok_iff.1 h
        cases h
        intro member hmember
        rcases List.mem_cons.1 hmember with rfl | hmember
        · exact ⟨List.mem_cons_self, fun heq => hname (Option.some.inj heq)⟩
        · exact ⟨List.mem_cons_of_mem _ (ih hothers member hmember).1, (ih hothers member hmember).2⟩

end Json

namespace FlatRow

open Json

/-- A flat row that was decoded has no field under the key of its id. -/
theorem isIdFree_of_decode {outline : Outline} {row : FlatRow} (h : decode outline = .ok row) :
    row.fields.IsIdFree := by
  cases outline with
  | obj members =>
    rw [decode] at h
    obtain ⟨⟨found, fields⟩, hcollect, h⟩ := bind_eq_ok_iff.1 h
    cases found with
    | none => cases h
    | some id =>
      obtain ⟨payload, hpayload, h⟩ := bind_eq_ok_iff.1 h
      cases h
      -- The fields are held and then read as the members of an object.
      have hread : Payload.decode (.obj fields) = .ok payload := by
        cases hdecode : Payload.decode (.obj fields) with
        | ok value =>
          rw [hdecode] at hpayload
          exact hpayload
        | error e =>
          rw [hdecode] at hpayload
          cases hpayload
      obtain ⟨members, hmembers, rfl⟩ := map_eq_ok_iff.1 hread
      intro hmem
      obtain ⟨member, hmember, hkey⟩ := List.mem_map.1 (mem_keys_of_normaliseMembers hmem)
      have hfield : some member.1 ∈ fields.map Prod.fst := by
        rw [← Decoder.keys_of_membersWith hmembers]
        exact List.mem_map_of_mem hmember
      obtain ⟨field, hfield, heq⟩ := List.mem_map.1 hfield
      exact (Decoder.mem_of_collect hcollect field hfield).2 (heq.trans (congrArg some hkey))
  | null | bool | num | str | arr | unreadable | tooDeep | broken => cases h

end FlatRow

/-! ## Maps of fields -/

/-- Maps from row ids to fields, one for every scope. -/
abbrev PlainTables : Type := Scope → OrderedMap RowId Payload

/-- A call on a local table of a scope, at a time. -/
structure LocalAct where
  /-- What the wall clock shows. -/
  now : Timestamp
  /-- The scope. -/
  scope : Scope
  /-- The call. -/
  call : LocalCall
deriving DecidableEq, Repr

namespace PlainTables

/-- The maps without entries. -/
def empty : PlainTables := fun _ => ∅

/-- The fields under an id. -/
def row (tables : PlainTables) (scope : Scope) (id : RowId) : Except SyncError FlatRow :=
  match (tables scope).get? id with
  | some fields => .ok ⟨id, fields⟩
  | none => .error (.rowNotFound id)

/-- Answer a call: rows are listed in the order of their ids, written over and taken out. -/
def perform (tables : PlainTables) (scope : Scope) :
    LocalCall → Except SyncError LocalReply × PlainTables
  | .rows => (.ok (.rows ((tables scope).toList.map fun entry => ⟨entry.1, entry.2⟩)), tables)
  | .row id => ((tables.row scope id).map .row, tables)
  | .put row =>
    (.ok (.row row), Function.update tables scope ((tables scope).insert row.id row.fields))
  | .delete id =>
    ((tables.row scope id).map fun _ => .done,
      Function.update tables scope ((tables scope).erase id))

/-- Answer a call as a backend does. The time does not matter. -/
def step (tables : PlainTables) (act : LocalAct) : Except CallError LocalReply × PlainTables :=
  ((tables.perform act.scope act.call).1.mapError .refused, (tables.perform act.scope act.call).2)

end PlainTables

/-- The ids of a call are valid, and no field stands under the key of the id. -/
def LocalCall.IsProper : LocalCall → Prop
  | .rows => True
  | .row id | .delete id => checkRowId id = .ok ()
  | .put given => checkRowId given.id = .ok () ∧ given.fields.IsIdFree

instance (call : LocalCall) : Decidable call.IsProper :=
  match call with
  | .rows => inferInstanceAs (Decidable True)
  | .row id | .delete id => inferInstanceAs (Decidable (checkRowId id = .ok ()))
  | .put given =>
    inferInstanceAs (Decidable (checkRowId given.id = .ok () ∧ given.fields.IsIdFree))

end RowSync
