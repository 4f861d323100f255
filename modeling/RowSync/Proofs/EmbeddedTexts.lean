import RowSync.Proofs.PlainTables

/-!
# Values That Stand for Embedded Texts

An object whose first member stands under the reserved key is read as the value of the text which
that member holds. A value is never read back from its own outline if an object in it begins with
that key (`isPlain_of_valueWith_outline`): whatever is read is plain before its members are put in
order, while the object that embeds a text has the reserved member alone.

So a payload is read back just if its values are plain (`Payload.decode_toJson_iff`). All payloads
are plain that were decoded from a text or value without the reserved key
(`Payload.isPlain_of_decode`).
-/

namespace RowSync

namespace Json

/-! ## Outlines without a key -/

namespace Outline

mutual

/-- No object in the outline has a member under the key. -/
def avoids (key : String) : Outline → Bool
  | .arr items => itemsAvoid key items
  | .obj members => membersAvoid key members
  | _ => true

/-- Every item avoids the key. -/
def itemsAvoid (key : String) : List Outline → Bool
  | [] => true
  | item :: rest => item.avoids key && itemsAvoid key rest

/-- No member stands under the key, and the value of every member avoids it. -/
def membersAvoid (key : String) : List (Option String × Outline) → Bool
  | [] => true
  | (name, value) :: rest => name != some key && value.avoids key && membersAvoid key rest

end

theorem itemsAvoid_iff {key : String} {items : List Outline} :
    itemsAvoid key items ↔ ∀ item ∈ items, item.avoids key := by
  induction items with
  | nil => simp [itemsAvoid]
  | cons item rest ih => simp [itemsAvoid, ih]

theorem membersAvoid_iff {key : String} {members : List (Option String × Outline)} :
    membersAvoid key members ↔
      ∀ member ∈ members, member.1 ≠ some key ∧ member.2.avoids key := by
  induction members with
  | nil => simp [membersAvoid]
  | cons member rest ih =>
    obtain ⟨name, value⟩ := member
    simp [membersAvoid, ih]

end Outline

/-- The outlines of items, one by one. -/
theorem itemsOutline_eq_map (items : List Json) : itemsOutline items = items.map outline := by
  induction items with
  | nil => rfl
  | cons item rest ih => rw [itemsOutline, ih, List.map_cons]

/-- The outlines of members, one by one. -/
theorem membersOutline_eq_map (members : List (String × Json)) :
    membersOutline members = members.map fun member => (some member.1, member.2.outline) := by
  induction members with
  | nil => rfl
  | cons member rest ih => rw [membersOutline, ih, List.map_cons]

/-! ## What is read -/

namespace Decoder

variable {read : String → Option Json}

/-- The first member of an object that does not embed a text is not the reserved one. -/
theorem head_ne_of_embedding?_eq_none {outlines : List (Option String × Outline)}
    {members : List (String × Json)} (hnone : embedding? outlines = none)
    (h : membersWith read outlines = .ok members) :
    members.head?.all (·.1 != embeddedKey) := by
  have hkeys := keys_of_membersWith h
  cases members with
  | nil => rfl
  | cons member rest =>
    obtain ⟨head, others, houtlines, hhead, -⟩ := List.map_eq_cons_iff.1 hkeys.symm
    rw [houtlines, ← Prod.eta head, hhead, embedding?] at hnone
    split at hnone
    · cases hnone
    · simpa using ‹¬_›

/-- An embedded text is a value that is read, and the only member of its object. -/
theorem embeddedValue_eq_ok {outline : Outline} {rest : List (Option String × Outline)}
    {value : Json} (h : embeddedValue read outline rest = .ok value) :
    rest = [] ∧ ∃ text, outline = .str text ∧ read text = some value := by
  obtain ⟨text, htext, h⟩ := bind_eq_ok_iff.1 h
  have houtline : outline = .str text := by
    unfold string at htext
    split at htext
    · cases htext
      rfl
    · cases htext
  split at h
  · cases h
  · rename_i hread
    split at h
    · cases h
      exact ⟨List.isEmpty_iff.1 ‹_›, text, houtline, hread⟩
    · cases h

mutual

/-- What is read is plain, if embedded texts have plain values. -/
theorem isPlain_of_valueWith (hread : ∀ text value, read text = some value → value.isPlain)
    {outline : Outline} {value : Json} (h : valueWith read outline = .ok value) :
    value.isPlain := by
  match outline with
  | .null | .bool _ | .num _ | .str _ =>
    cases h
    rfl
  | .arr items =>
    obtain ⟨values, hvalues, rfl⟩ := map_eq_ok_iff.1 h
    simpa [isPlain] using itemsPlain_of_itemsWith hread hvalues
  | .obj members =>
    rw [valueWith] at h
    split at h
    · obtain ⟨-, text, -, htext⟩ := embeddedValue_eq_ok h
      exact hread text value htext
    · obtain ⟨values, hvalues, rfl⟩ := map_eq_ok_iff.1 h
      simp only [isPlain, Bool.and_eq_true]
      exact ⟨head_ne_of_embedding?_eq_none ‹_› hvalues, membersPlain_of_membersWith hread hvalues⟩
  | .unreadable | .tooDeep _ | .broken => cases h

theorem itemsPlain_of_itemsWith (hread : ∀ text value, read text = some value → value.isPlain)
    {outlines : List Outline} {items : List Json} (h : itemsWith read outlines = .ok items) :
    itemsPlain items := by
  match outlines with
  | [] =>
    cases h
    rfl
  | outline :: rest =>
    rw [itemsWith] at h
    obtain ⟨item, hitem, h⟩ := bind_eq_ok_iff.1 h
    obtain ⟨others, hothers, h⟩ := bind_eq_ok_iff.1 h
    cases h
    simp [itemsPlain, isPlain_of_valueWith hread hitem, itemsPlain_of_itemsWith hread hothers]

theorem membersPlain_of_membersWith
    (hread : ∀ text value, read text = some value → value.isPlain)
    {outlines : List (Option String × Outline)} {members : List (String × Json)}
    (h : membersWith read outlines = .ok members) : membersPlain members := by
  match outlines with
  | [] =>
    cases h
    rfl
  | (none, _) :: _ => cases h
  | (some key, outline) :: rest =>
    rw [membersWith] at h
    obtain ⟨value, hvalue, h⟩ := bind_eq_ok_iff.1 h
    obtain ⟨others, hothers, h⟩ := bind_eq_ok_iff.1 h
    cases h
    simp [membersPlain, isPlain_of_valueWith hread hvalue,
      membersPlain_of_membersWith hread hothers]

end

/-- The value of an embedded text is plain, to however many levels texts are embedded in it. -/
theorem isPlain_of_readLevels {levels : Nat} {text : String} {value : Json}
    (h : readLevels levels text = some value) : value.isPlain := by
  induction levels generalizing text value with
  | zero => cases h
  | succ levels ih =>
    have hvalue : valueWith (readLevels levels) (Outline.read text).1 = .ok value := by
      rw [readLevels, ofText] at h
      dsimp only at h
      split at h
      · split at h <;> simp_all [Except.toOption]
      all_goals cases h
    exact isPlain_of_valueWith (fun _ _ => ih) hvalue

theorem isPlain_of_readEmbedded (text : String) (value : Json)
    (h : readEmbedded text = some value) : value.isPlain :=
  isPlain_of_readLevels h

end Decoder

/-! ## Normalising -/

/-- Normalising members drops no key. -/
theorem mem_keys_normaliseMembers {key : String} {members : List (String × Json)}
    (h : key ∈ members.map Prod.fst) : key ∈ (normaliseMembers members).map Prod.fst := by
  have hfound : (lookupEntry key (normaliseMembers members)).isSome := by
    induction members with
    | nil => simp at h
    | cons member rest ih =>
      obtain ⟨name, value⟩ := member
      rw [normaliseMembers]
      by_cases hname : key = name
      · subst hname
        by_cases hlater : (lookupEntry key (normaliseMembers rest)).isSome
        · simp [hlater]
        · simp [hlater, lookupEntry_insertEntry]
      · have hrest : (lookupEntry key (normaliseMembers rest)).isSome := ih (by simp_all)
        by_cases hlater : (lookupEntry name (normaliseMembers rest)).isSome
        · simp [hlater, hrest]
        · simp [hlater, lookupEntry_insertEntry, hname, hrest]
  obtain ⟨value, hvalue⟩ := Option.isSome_iff_exists.1 hfound
  have hmem := (lookupEntry_eq_some_iff (membersCanonical_normaliseMembers members).1).1 hvalue
  exact List.mem_map_of_mem hmem

/-- Members in key order are normalised one by one. -/
theorem normaliseMembers_of_ascending {members : List (String × Json)} (h : Ascending members) :
    normaliseMembers members = members.map fun member => (member.1, member.2.normalise) := by
  induction members with
  | nil => simp [normaliseMembers]
  | cons member rest ih =>
    obtain ⟨key, value⟩ := member
    obtain ⟨hfirst, hrest⟩ := List.pairwise_cons.1 h
    have hbefore : ∀ e ∈ rest.map fun member => (member.1, member.2.normalise),
        compare key e.1 = .lt := by
      intro e he
      obtain ⟨member, hmember, rfl⟩ := List.mem_map.1 he
      exact hfirst member hmember
    simp [normaliseMembers, ih hrest, lookupEntry_eq_none_of_before hbefore,
      insertEntry_of_before hbefore]

/-! ## Values that are read back -/

namespace Decoder

variable {read : String → Option Json}

/-- Members in key order that are read under the keys of others, and normalised. -/
theorem map_normalise_eq_of_membersWith {members found : List (String × Json)}
    (h : membersWith read (membersOutline members) = .ok found)
    (hsame : normaliseMembers found = members) :
    found.map (fun member => (member.1, member.2.normalise)) = members := by
  have hkeys : found.map Prod.fst = members.map Prod.fst := by
    have hkeys := keys_of_membersWith h
    rw [membersOutline_eq_map, List.map_map] at hkeys
    refine List.map_injective_iff.2 (Option.some_injective String) ?_
    simpa [Function.comp_def] using hkeys
  have hmembers : Ascending members := hsame ▸ (membersCanonical_normaliseMembers found).1
  have hfound : Ascending found := by
    have hpairs : (members.map Prod.fst).Pairwise fun a b => compare a b = .lt :=
      List.pairwise_map.2 hmembers
    exact List.pairwise_map.1 (hkeys ▸ hpairs)
  rw [← normaliseMembers_of_ascending hfound, hsame]

/-- A value that embeds a text is not read back: the value of the text does not begin with the
reserved key, and it has no other key. -/
theorem ne_obj_of_isPlain {found value : Json} (h : found.isPlain) :
    found.normalise ≠ .obj [(embeddedKey, value)] := by
  intro hsame
  cases found with
  | obj members =>
    rw [normalise, Json.obj.injEq] at hsame
    cases members with
    | nil => simp [normaliseMembers] at hsame
    | cons member rest =>
      have hkey : member.1 ∈ (normaliseMembers (member :: rest)).map Prod.fst :=
        mem_keys_normaliseMembers (by simp)
      rw [hsame] at hkey
      simp only [isPlain, Bool.and_eq_true] at h
      simp_all
  | _ => simp [normalise] at hsame

mutual

/-- A value that is read back from its outline is plain. -/
theorem isPlain_of_valueWith_outline
    (hread : ∀ text value, read text = some value → value.isPlain) {value found : Json}
    (h : valueWith read value.outline = .ok found) (hsame : found.normalise = value) :
    value.isPlain := by
  match value with
  | .null | .bool _ | .num _ | .str _ => rfl
  | .arr items =>
    rw [outline, valueWith] at h
    obtain ⟨values, hvalues, rfl⟩ := map_eq_ok_iff.1 h
    rw [normalise, Json.arr.injEq] at hsame
    simpa [isPlain] using itemsPlain_of_itemsWith_outline hread hvalues hsame
  | .obj members =>
    rw [outline, valueWith] at h
    split at h
    · rename_i outline rest hembedding
      obtain ⟨rfl, text, rfl, htext⟩ := embeddedValue_eq_ok h
      -- The reserved member is the only one.
      cases members with
      | nil => cases hembedding
      | cons member others =>
        rw [membersOutline, embedding?] at hembedding
        split at hembedding
        · rename_i hkey
          obtain ⟨-, hothers⟩ := Prod.mk.inj (Option.some.inj hembedding)
          rw [membersOutline_eq_map, List.map_eq_nil_iff] at hothers
          have hmember : member = (embeddedKey, member.2) := Prod.ext hkey rfl
          rw [hothers, hmember] at hsame
          exact absurd hsame (ne_obj_of_isPlain (hread text found htext))
        · cases hembedding
    · obtain ⟨values, hvalues, rfl⟩ := map_eq_ok_iff.1 h
      rw [normalise, Json.obj.injEq] at hsame
      have hmembers := map_normalise_eq_of_membersWith hvalues hsame
      simp only [isPlain, Bool.and_eq_true]
      refine ⟨?_, membersPlain_of_membersWith_outline hread hvalues hmembers⟩
      -- The keys are the same as of the members that are read.
      rw [← hmembers, List.head?_map, Option.all_map]
      exact head_ne_of_embedding?_eq_none ‹_› hvalues

theorem itemsPlain_of_itemsWith_outline
    (hread : ∀ text value, read text = some value → value.isPlain) {items found : List Json}
    (h : itemsWith read (itemsOutline items) = .ok found) (hsame : normaliseItems found = items) :
    itemsPlain items := by
  match items with
  | [] => rfl
  | item :: rest =>
    rw [itemsOutline, itemsWith] at h
    obtain ⟨value, hvalue, h⟩ := bind_eq_ok_iff.1 h
    obtain ⟨others, hothers, h⟩ := bind_eq_ok_iff.1 h
    cases h
    rw [normaliseItems, List.cons.injEq] at hsame
    simp [itemsPlain, isPlain_of_valueWith_outline hread hvalue hsame.1,
      itemsPlain_of_itemsWith_outline hread hothers hsame.2]

theorem membersPlain_of_membersWith_outline
    (hread : ∀ text value, read text = some value → value.isPlain)
    {members found : List (String × Json)}
    (h : membersWith read (membersOutline members) = .ok found)
    (hsame : found.map (fun member => (member.1, member.2.normalise)) = members) :
    membersPlain members := by
  match members with
  | [] => rfl
  | (key, value) :: rest =>
    rw [membersOutline, membersWith] at h
    obtain ⟨value', hvalue, h⟩ := bind_eq_ok_iff.1 h
    obtain ⟨others, hothers, h⟩ := bind_eq_ok_iff.1 h
    cases h
    rw [List.map_cons, List.cons.injEq, Prod.mk.injEq] at hsame
    simp [membersPlain, isPlain_of_valueWith_outline hread hvalue hsame.1.2,
      membersPlain_of_membersWith_outline hread hothers hsame.2]

end

/-! ## Values without the reserved key -/

mutual

/-- An outline without the reserved key is that of the value that is read. -/
theorem outline_of_valueWith {outline : Outline} {value : Json}
    (havoids : outline.avoids embeddedKey) (h : valueWith read outline = .ok value) :
    value.outline = outline := by
  match outline with
  | .null | .bool _ | .num _ | .str _ =>
    cases h
    rfl
  | .arr items =>
    obtain ⟨values, hvalues, rfl⟩ := map_eq_ok_iff.1 h
    rw [Json.outline, itemsOutline_of_itemsWith havoids hvalues]
  | .obj members =>
    rw [valueWith] at h
    split at h
    · -- The first member would have the reserved key.
      rename_i embedded rest hembedding
      obtain ⟨-, text, rfl, -⟩ := embeddedValue_eq_ok h
      have hfirst : (some embeddedKey, .str text) ∈ members := by
        unfold embedding? at hembedding
        split at hembedding
        · split at hembedding <;> cases hembedding
          simp_all
        · cases hembedding
      exact absurd rfl (Outline.membersAvoid_iff.1 havoids _ hfirst).1
    · obtain ⟨values, hvalues, rfl⟩ := map_eq_ok_iff.1 h
      rw [Json.outline, membersOutline_of_membersWith havoids hvalues]
  | .unreadable | .tooDeep _ | .broken => cases h

theorem itemsOutline_of_itemsWith {outlines : List Outline} {items : List Json}
    (havoids : Outline.itemsAvoid embeddedKey outlines)
    (h : itemsWith read outlines = .ok items) : itemsOutline items = outlines := by
  match outlines with
  | [] =>
    cases h
    rfl
  | outline :: rest =>
    simp only [Outline.itemsAvoid, Bool.and_eq_true] at havoids
    rw [itemsWith] at h
    obtain ⟨item, hitem, h⟩ := bind_eq_ok_iff.1 h
    obtain ⟨others, hothers, h⟩ := bind_eq_ok_iff.1 h
    cases h
    rw [itemsOutline, outline_of_valueWith havoids.1 hitem,
      itemsOutline_of_itemsWith havoids.2 hothers]

theorem membersOutline_of_membersWith {outlines : List (Option String × Outline)}
    {members : List (String × Json)} (havoids : Outline.membersAvoid embeddedKey outlines)
    (h : membersWith read outlines = .ok members) : membersOutline members = outlines := by
  match outlines with
  | [] =>
    cases h
    rfl
  | (none, _) :: _ => cases h
  | (some key, outline) :: rest =>
    simp only [Outline.membersAvoid, Bool.and_eq_true] at havoids
    rw [membersWith] at h
    obtain ⟨value, hvalue, h⟩ := bind_eq_ok_iff.1 h
    obtain ⟨others, hothers, h⟩ := bind_eq_ok_iff.1 h
    cases h
    rw [membersOutline, outline_of_valueWith havoids.1.2 hvalue,
      membersOutline_of_membersWith havoids.2 hothers]

end

end Decoder

mutual

/-- Normalising a value makes no new keys in it. -/
theorem avoids_normalise {key : String} {value : Json} (h : value.outline.avoids key) :
    value.normalise.outline.avoids key := by
  match value with
  | .null | .bool _ | .num _ | .str _ => rfl
  | .arr items =>
    rw [normalise, outline, Outline.avoids]
    exact itemsAvoid_normaliseItems h
  | .obj members =>
    rw [normalise, outline, Outline.avoids]
    exact membersAvoid_normaliseMembers h

theorem itemsAvoid_normaliseItems {key : String} {items : List Json}
    (h : Outline.itemsAvoid key (itemsOutline items)) :
    Outline.itemsAvoid key (itemsOutline (normaliseItems items)) := by
  match items with
  | [] => rfl
  | item :: rest =>
    simp only [itemsOutline, Outline.itemsAvoid, Bool.and_eq_true] at h
    simp [normaliseItems, itemsOutline, Outline.itemsAvoid, avoids_normalise h.1,
      itemsAvoid_normaliseItems h.2]

theorem membersAvoid_normaliseMembers {key : String} {members : List (String × Json)}
    (h : Outline.membersAvoid key (membersOutline members)) :
    Outline.membersAvoid key (membersOutline (normaliseMembers members)) := by
  match members with
  | [] => simpa [normaliseMembers] using h
  | (name, value) :: rest =>
    simp only [membersOutline, Outline.membersAvoid, Bool.and_eq_true, bne_iff_ne] at h
    have hvalue := avoids_normalise h.1.2
    have hrest := membersAvoid_normaliseMembers h.2
    rw [normaliseMembers]
    split
    · exact hrest
    · rw [membersOutline_eq_map, Outline.membersAvoid_iff, List.forall_mem_map] at hrest ⊢
      intro member hmember
      rcases mem_insertEntry hmember with rfl | hmember
      · exact ⟨h.1.1, hvalue⟩
      · exact hrest member hmember

end

mutual

/-- A value without the reserved key is plain. -/
theorem isPlain_of_avoids {value : Json} (h : value.outline.avoids embeddedKey) :
    value.isPlain := by
  match value with
  | .null | .bool _ | .num _ | .str _ => rfl
  | .arr items => exact itemsPlain_of_itemsAvoid h
  | .obj members =>
    simp only [isPlain, Bool.and_eq_true]
    refine ⟨?_, membersPlain_of_membersAvoid h⟩
    cases members with
    | nil => rfl
    | cons member rest =>
      have hkey := (Outline.membersAvoid_iff.1 h _ List.mem_cons_self).1
      simpa using hkey

theorem itemsPlain_of_itemsAvoid {items : List Json}
    (h : Outline.itemsAvoid embeddedKey (itemsOutline items)) : itemsPlain items := by
  match items with
  | [] => rfl
  | item :: rest =>
    simp only [itemsOutline, Outline.itemsAvoid, Bool.and_eq_true] at h
    simp [itemsPlain, isPlain_of_avoids h.1, itemsPlain_of_itemsAvoid h.2]

theorem membersPlain_of_membersAvoid {members : List (String × Json)}
    (h : Outline.membersAvoid embeddedKey (membersOutline members)) : membersPlain members := by
  match members with
  | [] => rfl
  | (_, value) :: rest =>
    simp only [membersOutline, Outline.membersAvoid, Bool.and_eq_true] at h
    simp [membersPlain, isPlain_of_avoids h.1.2, membersPlain_of_membersAvoid h.2]

end

end Json

/-! ## Payloads -/

namespace Payload

open Json

variable {payload : Payload}

/-- No value in the payload begins with the reserved key. The payload itself may, since it is never
read as an embedded text. -/
def IsPlain (payload : Payload) : Prop := membersPlain payload.members

instance (payload : Payload) : Decidable payload.IsPlain := inferInstanceAs (Decidable (_ = true))

/-- A payload is read back just if it is plain. -/
theorem decode_toJson_iff : decode payload.toJson.outline = .ok payload ↔ payload.IsPlain := by
  constructor
  · intro h
    obtain ⟨found, hfound, hsame⟩ := map_eq_ok_iff.1 h
    have hmembers := Decoder.map_normalise_eq_of_membersWith hfound (congrArg members hsame)
    exact Decoder.membersPlain_of_membersWith_outline Decoder.isPlain_of_readEmbedded hfound
      hmembers
  · intro h
    rw [decode, toJson, Decoder.members_outline h, Except.map, ofMembers_members]

/-- A payload that is decoded from an outline without the reserved key is plain. -/
theorem isPlain_of_decode {outline : Outline} (havoids : outline.avoids embeddedKey)
    (h : decode outline = .ok payload) : payload.IsPlain := by
  obtain ⟨found, hfound, rfl⟩ := map_eq_ok_iff.1 h
  cases outline with
  | obj outlines =>
    have houtline : membersOutline found = outlines :=
      Decoder.membersOutline_of_membersWith havoids hfound
    rw [Outline.avoids, ← houtline] at havoids
    exact membersPlain_of_membersAvoid (membersAvoid_normaliseMembers havoids)
  | _ => cases hfound

end Payload

end RowSync
