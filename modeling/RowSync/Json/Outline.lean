import RowSync.Json.Token

/-!
# Outlines of JSON Texts

An outline is what a JSON text shows up to its first fault, with the fault in its place. Decoders
work on outlines, so that of two faults in a text they report the one that comes first.

Main statement: the outline of a value is readable (`isReadable_outline`).
-/

namespace RowSync.Json

/-- A JSON text as far as it can be read. An object keeps its members in the order of the text,
repeated keys included; a key is missing where the text has none that can be read. -/
inductive Outline where
  | null
  | bool (value : Bool)
  | num (value : Number)
  | str (value : String)
  | arr (items : List Outline)
  | obj (members : List (Option String × Outline))
  /-- A well-formed number or string that cannot be held: too large, or with a lone surrogate. -/
  | unreadable
  /-- An array or object nested too deeply to be held; its text may break off inside. -/
  | tooDeep (complete : Bool)
  /-- The place where the text breaks off or is malformed; nothing follows it. -/
  | broken
deriving Repr, Inhabited

namespace Outline

/-- The number of levels to which arrays and objects may nest. -/
def maxDepth : Nat := 127

/-! ## Reading -/

/-- A container that is open around the place of reading; what it holds so far is in reverse. -/
inductive Frame where
  | array (items : List Outline)
  | object (members : List (Option String × Outline))
  | member (members : List (Option String × Outline)) (key : Option String)

/-- What the text has to go on with. -/
inductive Expect where
  /-- A value. -/
  | value
  /-- The first item of an array, or its end. -/
  | firstItem
  /-- The first key of an object, or its end. -/
  | firstKey
  /-- A key. -/
  | key
  /-- The colon after a key. -/
  | colon (key : Option String)
  /-- What follows a value. -/
  | next (value : Outline)

/-- An array or object inside the given containers, as far as it can be held there. -/
def nested (container : Outline) (complete : Bool) (outer : List Frame) : Outline :=
  if outer[maxDepth - 1]?.isNone then container else .tooDeep complete

/-- Close the open containers around the place where a text breaks off. -/
def enclose (inner : Outline) : List Frame → Outline
  | [] => inner
  | .array items :: outer => enclose (nested (.arr (items.reverse ++ [inner])) false outer) outer
  | .object members :: outer =>
    enclose (nested (.obj (members.reverse ++ [(none, inner)])) false outer) outer
  | .member members key :: outer =>
    enclose (nested (.obj (members.reverse ++ [(key, inner)])) false outer) outer

/-- The outline of a text that is malformed at the place of reading. -/
def breakOff : Expect → List Frame → Outline
  | .next value, .array items :: outer => enclose .broken (.array (value :: items) :: outer)
  | .next value, .member members key :: outer =>
    enclose .broken (.object ((key, value) :: members) :: outer)
  | .colon key, .object members :: outer => enclose .broken (.member members key :: outer)
  | _, stack => enclose .broken stack

/-- Read a value from the front of a token list; also the tokens after it. -/
def readFrom (expect : Expect) (stack : List Frame) : List Token → Outline × List Token
  | [] =>
    match expect, stack with
    | .next value, [] => (value, [])
    | _, _ => (breakOff expect stack, [])
  | token :: rest =>
    match expect, stack, token with
    | .next value, [], _ => (value, token :: rest)
    | .next value, .array items :: outer, .comma =>
      readFrom .value (.array (value :: items) :: outer) rest
    | .next value, .array items :: outer, .closeArray =>
      readFrom (.next (nested (.arr (value :: items).reverse) true outer)) outer rest
    | .next value, .member members key :: outer, .comma =>
      readFrom .key (.object ((key, value) :: members) :: outer) rest
    | .next value, .member members key :: outer, .closeObject =>
      readFrom (.next (nested (.obj ((key, value) :: members).reverse) true outer)) outer rest
    | .firstItem, .array items :: outer, .closeArray =>
      readFrom (.next (nested (.arr items.reverse) true outer)) outer rest
    | .firstKey, .object members :: outer, .closeObject =>
      readFrom (.next (nested (.obj members.reverse) true outer)) outer rest
    | .firstKey, .object members :: outer, .str key
    | .key, .object members :: outer, .str key =>
      readFrom (.colon key) (.object members :: outer) rest
    | .colon key, .object members :: outer, .colon =>
      readFrom .value (.member members key :: outer) rest
    | .value, stack, .openArray
    | .firstItem, stack, .openArray => readFrom .firstItem (.array [] :: stack) rest
    | .value, stack, .openObject
    | .firstItem, stack, .openObject => readFrom .firstKey (.object [] :: stack) rest
    | .value, stack, .null
    | .firstItem, stack, .null => readFrom (.next .null) stack rest
    | .value, stack, .bool value
    | .firstItem, stack, .bool value => readFrom (.next (.bool value)) stack rest
    | .value, stack, .num value
    | .firstItem, stack, .num value =>
      readFrom (.next (value.elim .unreadable .num)) stack rest
    | .value, stack, .str value
    | .firstItem, stack, .str value =>
      readFrom (.next (value.elim .unreadable .str)) stack rest
    | expect, stack, _ => (breakOff expect stack, [])

/-- The outline of a text, and whether only white space follows the value. -/
def read (text : String) : Outline × Bool :=
  let (outline, rest) := readFrom .value [] (tokens text.toList)
  (outline, rest.isEmpty)

/-! ## What a text shows -/

mutual

/-- Whether the text of the outline is well-formed. -/
def isWellFormed : Outline → Bool
  | .arr items => itemsWellFormed items
  | .obj members => membersWellFormed members
  | .tooDeep complete => complete
  | .broken => false
  | _ => true

/-- Whether every item is well-formed. -/
def itemsWellFormed : List Outline → Bool
  | [] => true
  | item :: rest => item.isWellFormed && itemsWellFormed rest

/-- Whether the value of every member is well-formed. -/
def membersWellFormed : List (Option String × Outline) → Bool
  | [] => true
  | (_, value) :: rest => value.isWellFormed && membersWellFormed rest

end

mutual

/-- Whether all of the outline can be held. -/
def isReadable : Outline → Bool
  | .arr items => itemsReadable items
  | .obj members => membersReadable members
  | .unreadable | .tooDeep _ | .broken => false
  | _ => true

/-- Whether every item can be held. -/
def itemsReadable : List Outline → Bool
  | [] => true
  | item :: rest => item.isReadable && itemsReadable rest

/-- Whether every key and the value of every member can be held. -/
def membersReadable : List (Option String × Outline) → Bool
  | [] => true
  | (key, value) :: rest => key.isSome && value.isReadable && membersReadable rest

end

end Outline

mutual

/-- A value as the outline of a text that writes it. -/
def outline : Json → Outline
  | .null => .null
  | .bool value => .bool value
  | .num value => .num value
  | .str value => .str value
  | .arr items => .arr (itemsOutline items)
  | .obj members => .obj (membersOutline members)

/-- The outlines of the items. -/
def itemsOutline : List Json → List Outline
  | [] => []
  | item :: rest => item.outline :: itemsOutline rest

/-- The outlines of the members. -/
def membersOutline : List (String × Json) → List (Option String × Outline)
  | [] => []
  | (key, value) :: rest => (some key, value.outline) :: membersOutline rest

end

namespace Outline

mutual

/-- The outline of a value can be held. -/
@[simp]
theorem isReadable_outline (value : Json) : value.outline.isReadable := by
  match value with
  | .null | .bool _ | .num _ | .str _ => simp [outline, isReadable]
  | .arr items => simp [outline, isReadable, itemsReadable_itemsOutline items]
  | .obj members => simp [outline, isReadable, membersReadable_membersOutline members]

/-- The outlines of items can be held. -/
theorem itemsReadable_itemsOutline (items : List Json) : itemsReadable (itemsOutline items) := by
  match items with
  | [] => simp [itemsOutline, itemsReadable]
  | item :: rest =>
    simp [itemsOutline, itemsReadable, isReadable_outline item, itemsReadable_itemsOutline rest]

/-- The outlines of members can be held. -/
theorem membersReadable_membersOutline (members : List (String × Json)) :
    membersReadable (membersOutline members) := by
  match members with
  | [] => simp [membersOutline, membersReadable]
  | (key, value) :: rest =>
    simp [membersOutline, membersReadable, isReadable_outline value,
      membersReadable_membersOutline rest]

end

end Outline

end RowSync.Json
