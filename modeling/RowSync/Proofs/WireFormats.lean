import Mathlib.Data.List.Forall2
import RowSync.Proofs.EmbeddedTexts

/-!
# Values Read Back from the Wire

A wire format (`WireFormat`) writes values of a type as JSON and reads them. A value is read back
(`WireFormat.ReadsBack`) if reading what is written of it gives the value again. For each type that
travels between clients and the service it is said which values are read back: scopes and deletions
always, rows and mutations with a payload just if the payload is plain, reports just if the payloads
of their rows are, and flat rows just if their fields are and none of them stands under the key of
the id. A format is stable (`WireFormat.Stable`) if all values are read back that were read from
outlines without the reserved key.

Main statement: `wire_formats_round_trip`.
-/

namespace RowSync

open Json

/-- A way to write values of a type as JSON, and to read them. -/
structure WireFormat (α : Type) where
  /-- What is written of a value. -/
  encode : α → Json
  /-- How values are read. -/
  decode : Decoder α

namespace WireFormat

variable {α : Type} {format : WireFormat α}

/-- The value is read back from what is written of it. -/
def ReadsBack (format : WireFormat α) (x : α) : Prop :=
  Decoder.ofJson format.decode (format.encode x) = .ok x

/-- All values are read back that were read from outlines without the reserved key. -/
def Stable (format : WireFormat α) : Prop :=
  ∀ outline x, outline.avoids embeddedKey → format.decode outline = .ok x → format.ReadsBack x

/-- Lists of values, written as arrays. -/
def list (format : WireFormat α) : WireFormat (List α) where
  encode values := .arr (values.map format.encode)
  decode := .array format.decode

/-- A value is read from its outline. -/
theorem ofJson_eq_ok_iff {decoder : Decoder α} {json : Json} {x : α} :
    Decoder.ofJson decoder json = .ok x ↔ decoder json.outline = .ok x :=
  mapError_eq_ok_iff

theorem readsBack_iff {x : α} :
    format.ReadsBack x ↔ format.decode (format.encode x).outline = .ok x :=
  ofJson_eq_ok_iff

/-- An array is read item by item. -/
theorem mapM_eq_ok_iff {decoder : Decoder α} {items : List Outline} {values : List α} :
    items.mapM decoder = .ok values ↔
      List.Forall₂ (fun item value => decoder item = .ok value) items values := by
  induction items generalizing values with
  | nil =>
    rw [List.mapM_nil, List.forall₂_nil_left_iff]
    exact ⟨fun h => by cases h; rfl, fun h => by rw [h]; rfl⟩
  | cons item rest ih =>
    simp only [List.mapM_cons, bind_eq_ok_iff, ih, List.forall₂_cons_left_iff]
    constructor
    · rintro ⟨value, hvalue, others, hothers, h⟩
      cases h
      exact ⟨value, others, hvalue, hothers, rfl⟩
    · rintro ⟨value, others, hvalue, hothers, rfl⟩
      exact ⟨value, hvalue, others, hothers, rfl⟩

/-- A list is read back just if all of its values are. -/
theorem readsBack_list_iff {values : List α} :
    format.list.ReadsBack values ↔ ∀ value ∈ values, format.ReadsBack value := by
  simp only [readsBack_iff, list, outline, itemsOutline_eq_map, Decoder.array]
  rw [mapM_eq_ok_iff, List.forall₂_map_left_iff, List.forall₂_map_left_iff, List.forall₂_same]

/-- Lists have a stable format if their values have. -/
theorem Stable.list (h : format.Stable) : format.list.Stable := by
  intro outline values havoids hvalues
  cases outline with
  | arr items =>
    rw [readsBack_list_iff]
    -- Every value is read from an item, and no item has the reserved key.
    have hitems := List.forall₂_iff_get.1 (mapM_eq_ok_iff.1 hvalues)
    intro value hvalue
    obtain ⟨i, hi, rfl⟩ := List.mem_iff_getElem.1 hvalue
    have hitem : i < items.length := by omega
    exact h _ _ (Outline.itemsAvoid_iff.1 havoids _ (List.getElem_mem hitem)) (hitems.2 i hitem hi)
  | _ => cases hvalues

end WireFormat

namespace Json.Decoder

variable {α : Type} {decoder : Decoder α} {value : α}

/-- A member that a record has to have is decoded from one of its members. -/
theorem exists_of_field {key : String} {members : List (Option String × Outline)}
    (h : field key decoder members = .ok value) :
    ∃ outline, (some key, outline) ∈ members ∧ decoder outline = .ok value := by
  rw [field] at h
  split at h
  · rename_i outline hfind
    obtain ⟨before, after, hmembers, -⟩ := List.lookup_eq_some_iff.1 hfind
    exact ⟨outline, by simp [hmembers], h⟩
  · cases h

theorem field_of_find? {key : String} {members : List (Option String × Outline)}
    {outline : Outline} (h : find? key members = some outline) :
    field key decoder members = decoder outline := by
  rw [field, h]

theorem fieldD_of_find? {key : String} {default : α} {members : List (Option String × Outline)}
    {outline : Outline} (h : find? key members = some outline) :
    fieldD key decoder default members = decoder outline := by
  rw [fieldD, h]

/-- The next item of a record is the one in front. -/
theorem exists_of_next {items rest : List Outline} (h : next decoder items = .ok (value, rest)) :
    ∃ item, items = item :: rest ∧ decoder item = .ok value := by
  cases items with
  | nil => cases h
  | cons item items =>
    rw [next] at h
    obtain ⟨first, hfirst, h⟩ := bind_eq_ok_iff.1 h
    cases h
    exact ⟨item, rfl, hfirst⟩

/-- What is decoded is accepted. -/
theorem accepts_of_ok {outline : Outline} (h : decoder outline = .ok value) :
    decoder.accepts outline = .ok () := by
  rw [accepts, h, Except.map]

theorem accepts_of_error {outline : Outline} {e : DecodeError} (h : decoder outline = .error e) :
    decoder.accepts outline = .error e := by
  rw [accepts, h, Except.map]

/-- A known member that stands there for the first time has to be accepted. -/
theorem scan_cons_of_known {known : List (String × Decoder Unit)} {seen : List String}
    {key : String} {accepted : Decoder Unit} {outline : Outline}
    {rest : List (Option String × Outline)} (hknown : known.lookup key = some accepted)
    (hseen : key ∉ seen) :
    scan known seen ((some key, outline) :: rest) =
      accepted outline >>= fun _ => scan known (key :: seen) rest := by
  simp only [scan, hknown, hseen, ↓reduceIte]

/-- Of members that are written, none of them under the key, all are put aside as they are. -/
theorem collect_membersOutline {key : String} {found : Option α} {members : List (String × Json)}
    (h : key ∉ members.map Prod.fst) :
    collect key decoder found (membersOutline members) = .ok (found, membersOutline members) := by
  induction members with
  | nil => rfl
  | cons member rest ih =>
    obtain ⟨name, value⟩ := member
    rw [List.map_cons, List.mem_cons, not_or] at h
    have hname : ¬name = key := fun heq => h.1 heq.symm
    rw [membersOutline]
    unfold collect
    rw [if_neg hname, ih h.2, hold, Outline.isReadable_outline]
    rfl

end Json.Decoder

/-- A timestamp is read back. -/
theorem Timestamp.word_outline_toJson (timestamp : Timestamp) :
    Decoder.word timestamp.toJson.outline = .ok timestamp := by
  have hfits : (0 : Int) ≤ timestamp.toNat ∧ (timestamp.toNat : Int) < UInt64.size :=
    ⟨Int.natCast_nonneg _, Int.ofNat_lt.2 timestamp.toNat_lt⟩
  rw [toJson, ofNat, outline, Decoder.word, if_pos hfits, Int.toNat_natCast, UInt64.ofNat_toNat]

@[simp]
theorem Timestamp.accepts_outline_toJson (timestamp : Timestamp) :
    Decoder.word.accepts timestamp.toJson.outline = .ok () :=
  Decoder.accepts_of_ok timestamp.word_outline_toJson

/-! ## Scopes -/

namespace Scope

/-- How scopes are written and read. -/
def wire : WireFormat Scope := ⟨toJson, decode⟩

/-- Every scope is read back. -/
theorem wire_readsBack (scope : Scope) : wire.ReadsBack scope := rfl

theorem stable_wire : wire.Stable := fun _ scope _ _ => wire_readsBack scope

end Scope

/-! ## Rows -/

namespace Row

/-- How rows are written and read. -/
def wire : WireFormat Row := ⟨toJson, decode⟩

/-- Of a row that is written only the payload may be read otherwise. -/
theorem decode_toJson (row : Row) :
    decode row.toJson.outline =
      (Payload.decode row.payload.toJson.outline).map fun payload => { row with payload } := by
  rw [toJson, outline, decode]
  simp only [membersOutline]
  -- All four members are known.
  rw [Decoder.scan_cons_of_known rfl (by simp), Decoder.scan_cons_of_known rfl (by simp),
    Decoder.scan_cons_of_known rfl (by simp), Decoder.scan_cons_of_known rfl (by simp)]
  cases hpayload : Payload.decode row.payload.toJson.outline with
  | error e =>
    rw [Decoder.accepts_of_error hpayload]
    rfl
  | ok payload =>
    rw [Decoder.accepts_of_ok hpayload, row.modifiedAt.accepts_outline_toJson]
    show (do
      let payload ← Payload.decode row.payload.toJson.outline
      let modifiedAt ← Decoder.word row.modifiedAt.toJson.outline
      return (⟨row.id, payload, modifiedAt, row.deleted⟩ : Row)) = _
    rw [hpayload, row.modifiedAt.word_outline_toJson]
    rfl

/-- A row is read back just if its payload is plain. -/
theorem wire_readsBack_iff {row : Row} : wire.ReadsBack row ↔ row.payload.IsPlain := by
  rw [WireFormat.readsBack_iff, ← Payload.decode_toJson_iff]
  show decode row.toJson.outline = .ok row ↔ _
  rw [decode_toJson, map_eq_ok_iff]
  constructor
  · rintro ⟨payload, hpayload, hrow⟩
    rw [hpayload, ← congrArg Row.payload hrow]
  · exact fun h => ⟨row.payload, h, rfl⟩

/-- The payload of a row is decoded from a member or an item of it. -/
theorem isPlain_of_decode {outline : Outline} {row : Row} (havoids : outline.avoids embeddedKey)
    (h : decode outline = .ok row) : row.payload.IsPlain := by
  cases outline with
  | obj members =>
    obtain ⟨-, -, h⟩ := bind_eq_ok_iff.1 h
    obtain ⟨id, -, h⟩ := bind_eq_ok_iff.1 h
    obtain ⟨payload, hpayload, h⟩ := bind_eq_ok_iff.1 h
    obtain ⟨modifiedAt, -, h⟩ := bind_eq_ok_iff.1 h
    obtain ⟨deleted, -, h⟩ := bind_eq_ok_iff.1 h
    cases h
    obtain ⟨part, hpart, hpayload⟩ := Decoder.exists_of_field hpayload
    exact Payload.isPlain_of_decode (Outline.membersAvoid_iff.1 havoids _ hpart).2 hpayload
  | arr items =>
    obtain ⟨⟨id, _⟩, hid, h⟩ := bind_eq_ok_iff.1 h
    obtain ⟨⟨payload, _⟩, hpayload, h⟩ := bind_eq_ok_iff.1 h
    obtain ⟨⟨modifiedAt, _⟩, -, h⟩ := bind_eq_ok_iff.1 h
    obtain ⟨⟨deleted, rest⟩, -, h⟩ := bind_eq_ok_iff.1 h
    have hrow : (⟨id, payload, modifiedAt, deleted⟩ : Row) = row := by
      cases rest <;> cases h
      rfl
    obtain ⟨first, rfl, -⟩ := Decoder.exists_of_next hid
    obtain ⟨part, rfl, hpart⟩ := Decoder.exists_of_next hpayload
    rw [← hrow]
    exact Payload.isPlain_of_decode (Outline.itemsAvoid_iff.1 havoids part (by simp)) hpart
  | _ => cases h

theorem stable_wire : wire.Stable := fun _ _ havoids h =>
  wire_readsBack_iff.2 (isPlain_of_decode havoids h)

end Row

/-! ## Flat rows -/

namespace FlatRow

/-- How flat rows are written and read. -/
def wire : WireFormat FlatRow := ⟨toJson, decode⟩

/-- The fields of a flat row are decoded from the members that are put aside. -/
theorem exists_fields_of_decode {outline : Outline} {row : FlatRow} (h : decode outline = .ok row) :
    ∃ members fields, outline = .obj members ∧
      Decoder.collect idKey .string none members = .ok (some row.id, fields) ∧
      Payload.decode (.obj fields) = .ok row.fields := by
  cases outline with
  | obj members =>
    rw [decode] at h
    obtain ⟨⟨found, fields⟩, hcollect, h⟩ := bind_eq_ok_iff.1 h
    cases found with
    | none => cases h
    | some id =>
      obtain ⟨payload, hpayload, h⟩ := bind_eq_ok_iff.1 h
      cases h
      exact ⟨members, fields, rfl, hcollect, mapError_eq_ok_iff.1 hpayload⟩
  | _ => cases h

/-- A flat row is read back just if its fields are plain, and none stands under the key of the
id. -/
theorem wire_readsBack_iff {row : FlatRow} :
    wire.ReadsBack row ↔ row.fields.IsIdFree ∧ row.fields.IsPlain := by
  have hcollect (hfree : row.fields.IsIdFree) :
      Decoder.collect idKey .string none
        (membersOutline ((idKey, .str row.id) :: row.fields.members)) =
        .ok (some row.id, membersOutline row.fields.members) := by
    rw [membersOutline, outline, Decoder.collect, if_pos rfl]
    exact Decoder.collect_membersOutline hfree
  rw [WireFormat.readsBack_iff, ← Payload.decode_toJson_iff]
  constructor
  · intro h
    have h : decode row.toJson.outline = .ok row := h
    have hfree : row.fields.IsIdFree := isIdFree_of_decode h
    obtain ⟨members, fields, hmembers, hfields, hpayload⟩ := exists_fields_of_decode h
    cases hmembers
    rw [hcollect hfree] at hfields
    cases hfields
    exact ⟨hfree, hpayload⟩
  · rintro ⟨hfree, hpayload⟩
    have hheld : Decoder.held (Payload.decode row.fields.toJson.outline) = .ok row.fields :=
      mapError_eq_ok_iff.2 hpayload
    show decode row.toJson.outline = .ok row
    rw [toJson, outline, decode, hcollect hfree]
    show (do return (⟨row.id, ← Decoder.held (Payload.decode row.fields.toJson.outline)⟩ : FlatRow))
      = _
    rw [hheld]
    rfl

/-- A flat row that is decoded from an outline without the reserved key has plain fields. -/
theorem isPlain_of_decode {outline : Outline} {row : FlatRow}
    (havoids : outline.avoids embeddedKey) (h : decode outline = .ok row) :
    row.fields.IsPlain := by
  obtain ⟨members, fields, rfl, hcollect, hpayload⟩ := exists_fields_of_decode h
  have hfields : (Outline.obj fields).avoids embeddedKey := Outline.membersAvoid_iff.2
    fun member hmember => Outline.membersAvoid_iff.1 havoids member
      (Decoder.mem_of_collect hcollect member hmember).1
  exact Payload.isPlain_of_decode hfields hpayload

theorem stable_wire : wire.Stable := fun _ _ havoids h =>
  wire_readsBack_iff.2 ⟨isIdFree_of_decode h, isPlain_of_decode havoids h⟩

end FlatRow

/-! ## Mutations -/

namespace Mutation

/-- How mutations are written and read. -/
def wire : WireFormat Mutation := ⟨toJson, decode⟩

/-- The payload that a mutation carries is plain, if it carries one. -/
def IsPlain : Mutation → Prop
  | .upsert _ payload => payload.IsPlain
  | .delete _ => True

/-- Of a mutation that is written only the payload may be read otherwise. -/
theorem decode_upsert_toJson (id : RowId) (payload : Payload) :
    decode (upsert id payload).toJson.outline =
      (Decoder.held (Payload.decode payload.toJson.outline)).map (.upsert id) := by
  have hcollect : Decoder.collect "type" Tag.decode none (membersOutline
      [("type", .str "upsert"), ("uniqueId", .str id), ("payload", payload.toJson)]) =
      .ok (some .upsert, membersOutline [("uniqueId", .str id), ("payload", payload.toJson)]) := by
    rw [membersOutline, outline, Decoder.collect, if_pos rfl]
    exact Decoder.collect_membersOutline (by simp)
  rw [toJson, outline, decode, hcollect]
  show Decoder.held (ofMembers .upsert _) = _
  simp only [ofMembers, membersOutline]
  rw [Decoder.scan_cons_of_known rfl (by simp), Decoder.scan_cons_of_known rfl (by simp)]
  cases hpayload : Payload.decode payload.toJson.outline with
  | error e =>
    rw [Decoder.accepts_of_error hpayload]
    rfl
  | ok found =>
    rw [Decoder.accepts_of_ok hpayload]
    show Decoder.held (do
      let payload ← Payload.decode payload.toJson.outline
      return (.upsert id payload : Mutation)) = _
    rw [hpayload]
    rfl

/-- A mutation is read back just if its payload is plain. -/
theorem wire_readsBack_iff {mutation : Mutation} :
    wire.ReadsBack mutation ↔ mutation.IsPlain := by
  cases mutation with
  | upsert id payload =>
    rw [WireFormat.readsBack_iff, IsPlain, ← Payload.decode_toJson_iff]
    show decode (upsert id payload).toJson.outline = .ok (.upsert id payload) ↔ _
    rw [decode_upsert_toJson, map_eq_ok_iff]
    constructor
    · rintro ⟨found, hfound, h⟩
      cases h
      exact mapError_eq_ok_iff.1 hfound
    · exact fun h => ⟨payload, mapError_eq_ok_iff.2 h, rfl⟩
  | delete id =>
    have hreads : wire.ReadsBack (.delete id) := rfl
    exact iff_of_true hreads trivial

/-- The payload of a mutation is decoded from a member or an item of it. -/
theorem isPlain_of_decode {outline : Outline} {mutation : Mutation}
    (havoids : outline.avoids embeddedKey) (h : decode outline = .ok mutation) :
    mutation.IsPlain := by
  cases outline with
  | obj members =>
    rw [decode] at h
    obtain ⟨⟨tag, others⟩, hcollect, h⟩ := bind_eq_ok_iff.1 h
    cases tag with
    | none => cases h
    | some tag =>
      have h : ofMembers tag others = .ok mutation := mapError_eq_ok_iff.1 h
      cases tag with
      | delete =>
        obtain ⟨-, -, h⟩ := bind_eq_ok_iff.1 h
        obtain ⟨id, -, h⟩ := bind_eq_ok_iff.1 h
        cases h
        trivial
      | upsert =>
        obtain ⟨-, -, h⟩ := bind_eq_ok_iff.1 h
        obtain ⟨id, -, h⟩ := bind_eq_ok_iff.1 h
        obtain ⟨payload, hpayload, h⟩ := bind_eq_ok_iff.1 h
        cases h
        obtain ⟨part, hpart, hpayload⟩ := Decoder.exists_of_field hpayload
        have hmember := (Decoder.mem_of_collect hcollect _ hpart).1
        exact Payload.isPlain_of_decode (Outline.membersAvoid_iff.1 havoids _ hmember).2 hpayload
  | arr items =>
    rw [decode] at h
    obtain ⟨⟨tag, rest⟩, htag, h⟩ := bind_eq_ok_iff.1 h
    obtain ⟨-, -, h⟩ := bind_eq_ok_iff.1 h
    have hitems : ofItems tag rest = .ok mutation := mapError_eq_ok_iff.1 h
    obtain ⟨first, rfl, -⟩ := Decoder.exists_of_next htag
    unfold ofItems at hitems
    split at hitems
    · obtain ⟨id, -, hitems⟩ := bind_eq_ok_iff.1 hitems
      obtain ⟨payload, hpayload, hitems⟩ := bind_eq_ok_iff.1 hitems
      cases hitems
      exact Payload.isPlain_of_decode (Outline.itemsAvoid_iff.1 havoids _ (by simp)) hpayload
    · obtain ⟨id, -, hitems⟩ := bind_eq_ok_iff.1 hitems
      cases hitems
      trivial
    · cases hitems
  | _ => cases h

theorem stable_wire : wire.Stable := fun _ _ havoids h =>
  wire_readsBack_iff.2 (isPlain_of_decode havoids h)

end Mutation

/-! ## Reports -/

namespace SyncReport

/-- How reports are written and read. -/
def wire : WireFormat SyncReport := ⟨toJson, decode⟩

/-- Conflicts are written just if there are any. -/
theorem member?_conflicts_toJson (report : SyncReport) :
    report.toJson.member? "conflicts" =
      if report.conflicts.isEmpty then none else some (.arr (report.conflicts.map .str)) := by
  rw [toJson]
  by_cases h : report.conflicts.isEmpty
  · rw [if_pos h, if_pos h]
    rfl
  · rw [if_neg h, if_neg h]
    rfl

/-- The names of conflicts are read back. -/
theorem array_string_outline (names : List RowId) :
    Decoder.array .string (Json.arr (names.map .str)).outline = .ok names := by
  rw [outline, itemsOutline_eq_map, Decoder.array, WireFormat.mapM_eq_ok_iff,
    List.forall₂_map_left_iff, List.forall₂_map_left_iff, List.forall₂_same]
  exact fun _ _ => rfl

/-- Of a report that is written only the changes may be read otherwise. Conflicts that are left out
are none. -/
theorem decode_toJson (report : SyncReport) :
    decode report.toJson.outline =
      (Decoder.array Row.decode (Row.wire.list.encode report.changes).outline).map fun changes =>
        { report with changes } := by
  obtain ⟨newTimestamp, rows, conflicts⟩ := report
  have htime := newTimestamp.word_outline_toJson
  have hnames := array_string_outline conflicts
  -- Only what the members are decoded to matters from here on.
  cases conflicts with
  | nil =>
    show decode (.obj [(some "newTimestamp", newTimestamp.toJson.outline),
      (some "changes", (Row.wire.list.encode rows).outline)]) = _
    generalize newTimestamp.toJson.outline = timePart at htime ⊢
    generalize (Row.wire.list.encode rows).outline = rowsPart
    rw [decode, Decoder.scan_cons_of_known rfl (by simp), Decoder.scan_cons_of_known rfl (by simp),
      Decoder.accepts_of_ok htime]
    cases hrows : Decoder.array Row.decode rowsPart with
    | error e =>
      rw [Decoder.accepts_of_error hrows]
      rfl
    | ok changes =>
      rw [Decoder.accepts_of_ok hrows]
      rw [Decoder.field_of_find? (show Decoder.find? "newTimestamp" _ = some timePart from rfl),
        Decoder.field_of_find? (show Decoder.find? "changes" _ = some rowsPart from rfl), htime, hrows]
      rfl
  | cons first rest =>
    show decode (.obj [(some "newTimestamp", newTimestamp.toJson.outline),
      (some "changes", (Row.wire.list.encode rows).outline),
      (some "conflicts", (Json.arr ((first :: rest).map .str)).outline)]) = _
    generalize newTimestamp.toJson.outline = timePart at htime ⊢
    generalize (Row.wire.list.encode rows).outline = rowsPart
    generalize (Json.arr ((first :: rest).map .str)).outline = namesPart at hnames ⊢
    rw [decode, Decoder.scan_cons_of_known rfl (by simp), Decoder.scan_cons_of_known rfl (by simp),
      Decoder.scan_cons_of_known rfl (by simp), Decoder.accepts_of_ok htime,
      Decoder.accepts_of_ok hnames]
    cases hrows : Decoder.array Row.decode rowsPart with
    | error e =>
      rw [Decoder.accepts_of_error hrows]
      rfl
    | ok changes =>
      rw [Decoder.accepts_of_ok hrows]
      rw [Decoder.field_of_find? (show Decoder.find? "newTimestamp" _ = some timePart from rfl),
        Decoder.field_of_find? (show Decoder.find? "changes" _ = some rowsPart from rfl),
        Decoder.fieldD_of_find? (show Decoder.find? "conflicts" _ = some namesPart from rfl), htime,
        hrows, hnames]
      rfl

/-- A report is read back just if the payloads of its changes are plain. -/
theorem wire_readsBack_iff {report : SyncReport} :
    wire.ReadsBack report ↔ ∀ row ∈ report.changes, row.payload.IsPlain := by
  have hrows : Row.wire.list.ReadsBack report.changes ↔ ∀ row ∈ report.changes,
      row.payload.IsPlain := by
    simp only [WireFormat.readsBack_list_iff, Row.wire_readsBack_iff]
  rw [← hrows, WireFormat.readsBack_iff, WireFormat.readsBack_iff]
  show decode report.toJson.outline = .ok report ↔
    Decoder.array Row.decode (Row.wire.list.encode report.changes).outline = .ok report.changes
  rw [decode_toJson, map_eq_ok_iff]
  constructor
  · rintro ⟨changes, hchanges, hreport⟩
    rw [hchanges, ← congrArg SyncReport.changes hreport]
  · exact fun h => ⟨report.changes, h, rfl⟩

/-- The payloads of the changes are decoded from parts of the report. -/
theorem isPlain_of_decode {outline : Outline} {report : SyncReport}
    (havoids : outline.avoids embeddedKey) (h : decode outline = .ok report) :
    ∀ row ∈ report.changes, row.payload.IsPlain := by
  -- The changes are decoded from a part of the report.
  obtain ⟨part, hpart, hchanges⟩ : ∃ part : Outline, part.avoids embeddedKey ∧
      Row.wire.list.decode part = .ok report.changes := by
    cases outline with
    | obj members =>
      obtain ⟨-, -, h⟩ := bind_eq_ok_iff.1 h
      obtain ⟨newTimestamp, -, h⟩ := bind_eq_ok_iff.1 h
      obtain ⟨changes, hchanges, h⟩ := bind_eq_ok_iff.1 h
      obtain ⟨conflicts, -, h⟩ := bind_eq_ok_iff.1 h
      cases h
      obtain ⟨part, hpart, hchanges⟩ := Decoder.exists_of_field hchanges
      exact ⟨part, (Outline.membersAvoid_iff.1 havoids _ hpart).2, hchanges⟩
    | arr items =>
      obtain ⟨⟨newTimestamp, _⟩, htime, h⟩ := bind_eq_ok_iff.1 h
      obtain ⟨⟨changes, _⟩, hchanges, h⟩ := bind_eq_ok_iff.1 h
      obtain ⟨⟨conflicts, rest⟩, -, h⟩ := bind_eq_ok_iff.1 h
      have hreport : (⟨newTimestamp, changes, conflicts⟩ : SyncReport) = report := by
        cases rest <;> cases h
        rfl
      obtain ⟨first, rfl, -⟩ := Decoder.exists_of_next htime
      obtain ⟨part, rfl, hpart⟩ := Decoder.exists_of_next hchanges
      rw [← hreport]
      exact ⟨part, Outline.itemsAvoid_iff.1 havoids part (by simp), hpart⟩
    | _ => cases h
  have hreads := Row.stable_wire.list part _ hpart hchanges
  exact fun row hrow => Row.wire_readsBack_iff.1 (WireFormat.readsBack_list_iff.1 hreads row hrow)

theorem stable_wire : wire.Stable := fun _ _ havoids h =>
  wire_readsBack_iff.2 (isPlain_of_decode havoids h)

end SyncReport

/-! ## All formats -/

/-- What is written of a scope or a deletion is read back. What is written of a row, a mutation with
a payload or a report is read back just if no value in the payloads begins with the reserved key,
and what is written of a flat row if its fields are like that and none of them stands under the key
of the id, as none does in a flat row that was read. Conflicts are left out if there are none, and a
list is read back just if its values are. Whatever was read from a text or value without the
reserved key, alone or in a list, is read back, in whatever spelling and form it was written. -/
theorem wire_formats_round_trip (scope : Scope) (row : Row) (given : FlatRow) (id : RowId)
    (payload : Payload) (report : SyncReport) :
    Scope.wire.ReadsBack scope ∧
    (Row.wire.ReadsBack row ↔ row.payload.IsPlain) ∧
    (FlatRow.wire.ReadsBack given ↔ given.fields.IsIdFree ∧ given.fields.IsPlain) ∧
    (∀ outline, FlatRow.wire.decode outline = .ok given → given.fields.IsIdFree) ∧
    (Mutation.wire.ReadsBack (.upsert id payload) ↔ payload.IsPlain) ∧
    Mutation.wire.ReadsBack (.delete id) ∧
    (SyncReport.wire.ReadsBack report ↔ ∀ row ∈ report.changes, row.payload.IsPlain) ∧
    (report.toJson.member? "conflicts" =
      if report.conflicts.isEmpty then none else some (.arr (report.conflicts.map .str))) ∧
    (∀ (α : Type) (format : WireFormat α) values,
      format.list.ReadsBack values ↔ ∀ value ∈ values, format.ReadsBack value) ∧
    (Scope.wire.Stable ∧ Row.wire.Stable ∧ FlatRow.wire.Stable ∧ Mutation.wire.Stable ∧
      SyncReport.wire.Stable) ∧
    Scope.wire.list.Stable ∧ Row.wire.list.Stable ∧ FlatRow.wire.list.Stable ∧
      Mutation.wire.list.Stable ∧ SyncReport.wire.list.Stable := by
  refine ⟨Scope.wire_readsBack scope, Row.wire_readsBack_iff, FlatRow.wire_readsBack_iff,
    fun _ h => FlatRow.isIdFree_of_decode h, Mutation.wire_readsBack_iff,
    Mutation.wire_readsBack_iff.2 trivial, SyncReport.wire_readsBack_iff,
    SyncReport.member?_conflicts_toJson report, fun _ _ _ => WireFormat.readsBack_list_iff, ?_, ?_⟩
  · exact ⟨Scope.stable_wire, Row.stable_wire, FlatRow.stable_wire, Mutation.stable_wire,
      SyncReport.stable_wire⟩
  · exact ⟨Scope.stable_wire.list, Row.stable_wire.list, FlatRow.stable_wire.list,
      Mutation.stable_wire.list, SyncReport.stable_wire.list⟩

/-- A payload with members that are named as the members of rows and mutations are. -/
def namesakePayload : Payload :=
  .ofMembers [("type", .str "delete"), ("payload", .obj [("uniqueId", .null)]),
    ("uniqueId", .str "other"), ("modifiedAt", .ofNat 5)]

/-- A row and a mutation keep such a payload apart from their own members, but in a flat row the id
would stand twice. A list of mutations that is read from arrays is read back from objects. -/
theorem wire_formats_round_trip_sample :
    let spelled : Json := .arr [.arr [.str "insert", .str "a", namesakePayload.toJson],
      .arr [.str "delete", .str "b"]]
    let batch : List Mutation := [.upsert "a" namesakePayload, .delete "b"]
    Row.wire.ReadsBack ⟨"a", namesakePayload, 1000, false⟩ ∧
      Mutation.wire.ReadsBack (.upsert "a" namesakePayload) ∧
      ¬FlatRow.wire.ReadsBack ⟨"a", namesakePayload⟩ ∧
      Decoder.ofJson Mutation.wire.list.decode spelled = .ok batch ∧
      Mutation.wire.list.ReadsBack batch := by
  intro spelled batch
  obtain ⟨-, hrow, hflat, -, hupsert, -, -, -, -, -, -, -, -, hbatch, -⟩ :=
    wire_formats_round_trip ⟨"notes", "u1"⟩ ⟨"a", namesakePayload, 1000, false⟩
      ⟨"a", namesakePayload⟩ "a" namesakePayload ⟨1000, [], []⟩
  have hread : Mutation.wire.list.decode spelled.outline = .ok batch := by decide +kernel
  refine ⟨hrow.2 (by decide), hupsert.2 (by decide), fun h => ?_,
    WireFormat.ofJson_eq_ok_iff.2 hread, hbatch _ _ (by decide) hread⟩
  exact absurd (hflat.1 h).1 (by decide)

/-- A row whose payload has the reserved key in a value with another one. -/
def reservedRow : Row :=
  ⟨"a", .ofMembers [("x", .obj [("b", .ofNat 2), (embeddedKey, .str "1")])], 1, false⟩

/-- The row is read from a value in which the reserved key does not come first. It comes first in
what is written of the row, which is not read back. -/
theorem reserved_key_not_read_back :
    Decoder.ofJson Row.decode (.obj [("uniqueId", .str "a"),
      ("payload", .obj [("x", .obj [("b", .ofNat 2), (embeddedKey, .str "1")])]),
      ("modifiedAt", .ofNat 1), ("deleted", .bool false)]) = .ok reservedRow ∧
    ¬Row.wire.ReadsBack reservedRow :=
  ⟨by decide +kernel, fun h => absurd (Row.wire_readsBack_iff.1 h) (by decide +kernel)⟩

end RowSync
