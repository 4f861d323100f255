import RowSync.Json.Decoder

/-!
# Values of Any Shape

Decoders for values of which only the syntax is known. Wherever such a value is wanted, a text may
embed another text: an object whose first member stands under `embeddedKey` is the value whose text
that member holds. It has no other members.

Main statements: a plain value, in which no object begins like that, is the value of its own
outline however embedded texts are read (`valueWith_outline`), and so an object of plain values has
the members of its outline (`members_outline`).
-/

namespace RowSync.Json

/-- The key under which an object embeds the text of a value. -/
def embeddedKey : String := "$serde_json::private::RawValue"

mutual

/-- No object in the value begins with the key of an embedded text. -/
def isPlain : Json → Bool
  | .arr items => itemsPlain items
  | .obj members => members.head?.all (·.1 != embeddedKey) && membersPlain members
  | _ => true

/-- Every item is plain. -/
def itemsPlain : List Json → Bool
  | [] => true
  | item :: rest => item.isPlain && itemsPlain rest

/-- The value of every member is plain. -/
def membersPlain : List (String × Json) → Bool
  | [] => true
  | (_, value) :: rest => value.isPlain && membersPlain rest

end

namespace Decoder

/-- The outline of the text that an object embeds, and the members that follow it. -/
def embedding? : List (Option String × Outline) → Option (Outline × List (Option String × Outline))
  | (some key, outline) :: rest => if key = embeddedKey then some (outline, rest) else none
  | _ => none

/-- The value of an object that embeds a text, given how to read such a text. A text that is not
JSON has the wrong shape for an embedded one, and nothing may follow it. -/
def embeddedValue (read : String → Option Json) (outline : Outline)
    (rest : List (Option String × Outline)) : Except DecodeError Json := do
  let text ← string outline
  match read text with
  | none => .error .mismatch
  | some value => if rest.isEmpty then .ok value else .error .malformed

mutual

/-- Any value, given how to read an embedded text. -/
def valueWith (read : String → Option Json) : Decoder Json
  | .null => .ok .null
  | .bool value => .ok (.bool value)
  | .num value => .ok (.num value)
  | .str value => .ok (.str value)
  | .arr items => (itemsWith read items).map .arr
  | .obj members =>
    match embedding? members with
    | some (outline, rest) => embeddedValue read outline rest
    | none => (membersWith read members).map .obj
  | .unreadable | .tooDeep _ | .broken => .error .malformed

/-- Items, given how to read an embedded text. -/
def itemsWith (read : String → Option Json) : List Outline → Except DecodeError (List Json)
  | [] => .ok []
  | item :: rest => do
    let value ← valueWith read item
    let values ← itemsWith read rest
    return value :: values

/-- Members, given how to read an embedded text. -/
def membersWith (read : String → Option Json) :
    List (Option String × Outline) → Except DecodeError (List (String × Json))
  | [] => .ok []
  | (none, _) :: _ => .error .malformed
  | (some key, outline) :: rest => do
    let value ← valueWith read outline
    let members ← membersWith read rest
    return (key, value) :: members

end

/-- The value of an embedded text that itself embeds texts to less than the given number of
levels. -/
def readLevels : Nat → String → Option Json
  | 0, _ => none
  | levels + 1, text => (ofText (valueWith (readLevels levels)) text).toOption

/-- The value of an embedded text. A text is longer than one that it embeds, so that it cannot embed
texts to more levels than it has characters. -/
def readEmbedded (text : String) : Option Json := readLevels (text.length + 1) text

/-- Any value. -/
def value : Decoder Json := valueWith readEmbedded

/-- The members of an object. The object itself does not embed a text. -/
def members : Decoder (List (String × Json))
  | .obj members => membersWith readEmbedded members
  | other => .error (fault other)

mutual

/-- A plain value is the value of its own outline. -/
theorem valueWith_outline (read : String → Option Json) {value : Json} (h : value.isPlain) :
    valueWith read value.outline = .ok value := by
  match value with
  | .null | .bool _ | .num _ | .str _ => simp [outline, valueWith]
  | .arr items =>
    simp only [isPlain] at h
    simp [outline, valueWith, itemsWith_outline read h, Except.map]
  | .obj members =>
    simp only [isPlain, Bool.and_eq_true] at h
    have hnone : embedding? (membersOutline members) = none := by
      cases members with
      | nil => rfl
      | cons head rest => simpa [membersOutline, embedding?] using h.1
    simp [outline, valueWith, hnone, membersWith_outline read h.2, Except.map]

/-- Plain items are the values of their outlines. -/
theorem itemsWith_outline (read : String → Option Json) {items : List Json} (h : itemsPlain items) :
    itemsWith read (itemsOutline items) = .ok items := by
  match items with
  | [] => rfl
  | item :: rest =>
    simp only [itemsPlain, Bool.and_eq_true] at h
    simp [itemsOutline, itemsWith, valueWith_outline read h.1, itemsWith_outline read h.2, bind,
      Except.bind, pure, Except.pure]

/-- Plain members are those of their outlines. -/
theorem membersWith_outline (read : String → Option Json) {members : List (String × Json)}
    (h : membersPlain members) :
    membersWith read (membersOutline members) = .ok members := by
  match members with
  | [] => rfl
  | (key, value) :: rest =>
    simp only [membersPlain, Bool.and_eq_true] at h
    simp [membersOutline, membersWith, valueWith_outline read h.1, membersWith_outline read h.2,
      bind, Except.bind, pure, Except.pure]

end

/-- The members of an object of plain values are those of its outline. -/
theorem members_outline {members : List (String × Json)} (h : membersPlain members) :
    Decoder.members (Json.obj members).outline = .ok members := by
  simpa [outline, Decoder.members] using membersWith_outline readEmbedded h

end Decoder

end RowSync.Json
