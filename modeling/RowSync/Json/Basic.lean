import RowSync.Binary64
import RowSync.OrderedMap

/-!
# JSON Values

JSON values, their kinds, and the canonical ones: those in which the members of every object stand
in increasing key order, so that no key occurs twice. Rows carry canonical values only.
-/

namespace RowSync

namespace Json

/-- A JSON number: an integer where the text has neither fraction nor exponent and the value fits
in 64 bits, signed or unsigned, and a double otherwise. -/
inductive Number where
  | int (value : Int)
  | double (value : Binary64)
deriving DecidableEq, Repr, Inhabited

/-- The kinds of JSON values. -/
inductive Kind where
  | null
  | boolean
  | number
  | string
  | array
  | object
deriving DecidableEq, Repr

/-- The name of a kind in messages. -/
def Kind.name : Kind → String
  | .null => "null"
  | .boolean => "boolean"
  | .number => "number"
  | .string => "string"
  | .array => "array"
  | .object => "object"

end Json

/-- A JSON value. -/
inductive Json where
  | null
  | bool (value : Bool)
  | num (value : Json.Number)
  | str (value : String)
  | arr (items : List Json)
  | obj (members : List (String × Json))
deriving Repr, Inhabited

namespace Json

mutual

/-- Equality of JSON values is decided by structure. -/
def decEq : (a b : Json) → Decidable (a = b)
  | .null, .null => isTrue rfl
  | .bool a, .bool b => decidable_of_iff (a = b) (by simp)
  | .num a, .num b => decidable_of_iff (a = b) (by simp)
  | .str a, .str b => decidable_of_iff (a = b) (by simp)
  | .arr a, .arr b => match itemsDecEq a b with
    | isTrue h => isTrue (by rw [h])
    | isFalse h => isFalse (by simpa using h)
  | .obj a, .obj b => match membersDecEq a b with
    | isTrue h => isTrue (by rw [h])
    | isFalse h => isFalse (by simpa using h)
  | .null, .bool _ | .null, .num _ | .null, .str _ | .null, .arr _ | .null, .obj _
  | .bool _, .null | .bool _, .num _ | .bool _, .str _ | .bool _, .arr _ | .bool _, .obj _
  | .num _, .null | .num _, .bool _ | .num _, .str _ | .num _, .arr _ | .num _, .obj _
  | .str _, .null | .str _, .bool _ | .str _, .num _ | .str _, .arr _ | .str _, .obj _
  | .arr _, .null | .arr _, .bool _ | .arr _, .num _ | .arr _, .str _ | .arr _, .obj _
  | .obj _, .null | .obj _, .bool _ | .obj _, .num _ | .obj _, .str _ | .obj _, .arr _ =>
    isFalse (by simp)

/-- Equality of the items of two arrays. -/
def itemsDecEq : (a b : List Json) → Decidable (a = b)
  | [], [] => isTrue rfl
  | x :: xs, y :: ys => match decEq x y, itemsDecEq xs ys with
    | isTrue h, isTrue hs => isTrue (by rw [h, hs])
    | isFalse h, _ => isFalse (by simp [h])
    | _, isFalse hs => isFalse (by simp [hs])
  | [], _ :: _ | _ :: _, [] => isFalse (by simp)

/-- Equality of the members of two objects. -/
def membersDecEq : (a b : List (String × Json)) → Decidable (a = b)
  | [], [] => isTrue rfl
  | (k, x) :: xs, (l, y) :: ys => match decEq x y, membersDecEq xs ys with
    | isTrue h, isTrue hs => decidable_of_iff (k = l) (by simp [h, hs])
    | isFalse h, _ => isFalse (by simp [h])
    | _, isFalse hs => isFalse (by simp [hs])
  | [], _ :: _ | _ :: _, [] => isFalse (by simp)

end

instance : DecidableEq Json := decEq

/-- The kind of a value. -/
def kind : Json → Kind
  | .null => .null
  | .bool _ => .boolean
  | .num _ => .number
  | .str _ => .string
  | .arr _ => .array
  | .obj _ => .object

/-- A natural number as a value. -/
def ofNat (n : Nat) : Json := .num (.int n)

/-- The member of an object under a key, the last one if there are several. -/
def member? (key : String) : Json → Option Json
  | .obj members => (members.reverse.find? (·.1 == key)).map Prod.snd
  | _ => none

mutual

/-- The members of every object in the value stand in increasing key order. -/
def isCanonical : Json → Bool
  | .arr items => itemsCanonical items
  | .obj members => decide (Ascending members) && membersCanonical members
  | _ => true

/-- Every item is canonical. -/
def itemsCanonical : List Json → Bool
  | [] => true
  | item :: rest => item.isCanonical && itemsCanonical rest

/-- The value of every member is canonical. -/
def membersCanonical : List (String × Json) → Bool
  | [] => true
  | (_, value) :: rest => value.isCanonical && membersCanonical rest

end

mutual

/-- The canonical value of the same content: members in key order, and of several values for one
key the last. -/
def normalise : Json → Json
  | .arr items => .arr (normaliseItems items)
  | .obj members => .obj (normaliseMembers members)
  | value => value

/-- Normalise every item. -/
def normaliseItems : List Json → List Json
  | [] => []
  | item :: rest => item.normalise :: normaliseItems rest

/-- Normalise every value and put the members in order. -/
def normaliseMembers : List (String × Json) → List (String × Json)
  | [] => []
  | (key, value) :: rest =>
    let members := normaliseMembers rest
    if (lookupEntry key members).isSome then members
    else insertEntry key value.normalise members

end

/-- Inserting a canonical member among canonical ones leaves all of them canonical. -/
theorem membersCanonical_insertEntry {key : String} {value : Json} {members : List (String × Json)}
    (hvalue : value.isCanonical) (hmembers : membersCanonical members) :
    membersCanonical (insertEntry key value members) := by
  induction members with
  | nil => simp [insertEntry, membersCanonical, hvalue]
  | cons head rest ih =>
    obtain ⟨k, v⟩ := head
    simp only [membersCanonical, Bool.and_eq_true] at hmembers
    rw [insertEntry]
    split <;> simp [membersCanonical, hvalue, hmembers, ih]

/-- The members that remain after an erasure are canonical if all of them were. -/
theorem membersCanonical_eraseEntry {key : String} {members : List (String × Json)}
    (hmembers : membersCanonical members) : membersCanonical (eraseEntry key members) := by
  induction members with
  | nil => simp [eraseEntry, membersCanonical]
  | cons head rest ih =>
    obtain ⟨k, v⟩ := head
    simp only [membersCanonical, Bool.and_eq_true] at hmembers
    unfold eraseEntry at ih ⊢
    rw [List.filter_cons]
    split <;> simp [membersCanonical, hmembers, ih]

mutual

/-- A normalised value is canonical. -/
theorem isCanonical_normalise (value : Json) : value.normalise.isCanonical := by
  match value with
  | .null | .bool _ | .num _ | .str _ => simp [normalise, isCanonical]
  | .arr items => simp [normalise, isCanonical, itemsCanonical_normaliseItems items]
  | .obj members => simp [normalise, isCanonical, membersCanonical_normaliseMembers members]

/-- Normalised items are canonical. -/
theorem itemsCanonical_normaliseItems (items : List Json) :
    itemsCanonical (normaliseItems items) := by
  match items with
  | [] => simp [normaliseItems, itemsCanonical]
  | item :: rest =>
    simp [normaliseItems, itemsCanonical, isCanonical_normalise item,
      itemsCanonical_normaliseItems rest]

/-- Normalised members are in order and their values are canonical. -/
theorem membersCanonical_normaliseMembers (members : List (String × Json)) :
    Ascending (normaliseMembers members) ∧ membersCanonical (normaliseMembers members) := by
  match members with
  | [] => exact ⟨.nil, by simp [normaliseMembers, membersCanonical]⟩
  | (key, value) :: rest =>
    obtain ⟨hasc, hcan⟩ := membersCanonical_normaliseMembers rest
    rw [normaliseMembers]
    split
    · exact ⟨hasc, hcan⟩
    · exact ⟨hasc.insertEntry key _,
        membersCanonical_insertEntry (isCanonical_normalise value) hcan⟩

end

mutual

/-- A canonical value is its own normal form. -/
theorem normalise_eq_self {value : Json} (h : value.isCanonical) : value.normalise = value := by
  match value with
  | .null | .bool _ | .num _ | .str _ => simp [normalise]
  | .arr items =>
    simp only [isCanonical] at h
    simp [normalise, normaliseItems_eq_self h]
  | .obj members =>
    simp only [isCanonical, Bool.and_eq_true, decide_eq_true_eq] at h
    simp [normalise, normaliseMembers_eq_self h.1 h.2]

/-- Canonical items are their own normal forms. -/
theorem normaliseItems_eq_self {items : List Json} (h : itemsCanonical items) :
    normaliseItems items = items := by
  match items with
  | [] => simp [normaliseItems]
  | item :: rest =>
    simp only [itemsCanonical, Bool.and_eq_true] at h
    simp [normaliseItems, normalise_eq_self h.1, normaliseItems_eq_self h.2]

/-- Canonical members in order are their own normal form. -/
theorem normaliseMembers_eq_self {members : List (String × Json)} (hasc : Ascending members)
    (h : membersCanonical members) : normaliseMembers members = members := by
  match members with
  | [] => simp [normaliseMembers]
  | (key, value) :: rest =>
    simp only [membersCanonical, Bool.and_eq_true] at h
    obtain ⟨hfirst, hrest⟩ := List.pairwise_cons.1 hasc
    simp [normaliseMembers, normalise_eq_self h.1, normaliseMembers_eq_self hrest h.2,
      lookupEntry_eq_none_of_before hfirst, insertEntry_of_before hfirst]

end

end Json

end RowSync
