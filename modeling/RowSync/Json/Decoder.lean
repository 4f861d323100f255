import RowSync.Json.Outline

/-!
# Decoders

Decoders take values of other types from outlines. They look at a text in its own order, so that
the first fault decides between malformed text and a value of the wrong shape.
-/

namespace RowSync.Json

/-- Why a text or a value cannot be decoded. -/
inductive DecodeError where
  /-- The text is not JSON. -/
  | malformed
  /-- The value has the wrong shape. -/
  | mismatch
  /-- An array goes on after the last item wanted. -/
  | surplus
deriving DecidableEq, Repr

/-- A decoder of values of a type. -/
abbrev Decoder (α : Type) := Outline → Except DecodeError α

namespace Decoder

/-- The fault of an outline that is not what is wanted. -/
def fault : Outline → DecodeError
  | .unreadable | .broken => .malformed
  | _ => .mismatch

/-- A string. -/
def string : Decoder String
  | .str value => .ok value
  | other => .error (fault other)

/-- A truth value. -/
def bool : Decoder Bool
  | .bool value => .ok value
  | other => .error (fault other)

/-- A natural number that fits in a 64-bit word. -/
def word : Decoder UInt64
  | .num (.int value) =>
    if 0 ≤ value ∧ value < UInt64.size then .ok (UInt64.ofNat value.toNat) else .error .mismatch
  | other => .error (fault other)

/-- Nothing of interest; the text only has to be well-formed. -/
def skip : Decoder Unit := fun outline =>
  if outline.isWellFormed then .ok () else .error .malformed

/-- Any value, put aside until its shape is asked for; all of it has to be readable. -/
def hold : Decoder Unit := fun outline =>
  if outline.isReadable then .ok () else .error .malformed

/-- An array of values. -/
def array {α : Type} (item : Decoder α) : Decoder (List α)
  | .arr items => items.mapM item
  | other => .error (fault other)

/-! ## Records -/

/-- What a decoder says about a value, without the value. -/
def accepts {α : Type} (decoder : Decoder α) : Decoder Unit := fun outline =>
  (decoder outline).map fun _ => ()

/-- Look at the members of a record in their order: those that are known have to be accepted and
may not be repeated, the others are skipped. -/
def scan (known : List (String × Decoder Unit)) (seen : List String) :
    List (Option String × Outline) → Except DecodeError Unit
  | [] => .ok ()
  | (some key, outline) :: rest =>
    match known.lookup key with
    | some decoder =>
      if key ∈ seen then .error .mismatch
      else do
        decoder outline
        scan known (key :: seen) rest
    | none => do
      skip outline
      scan known seen rest
  | (none, _) :: _ => .error .malformed

/-- Look at the members of a record in their order, when one of them has to be known before the
others: the member under the key stands at most once, and the others are put aside. -/
def collect {α : Type} (key : String) (decoder : Decoder α) (found : Option α) :
    List (Option String × Outline) →
      Except DecodeError (Option α × List (Option String × Outline))
  | [] => .ok (found, [])
  | (none, _) :: _ => .error .malformed
  | (some name, outline) :: rest =>
    if name = key then
      match found with
      | some _ => .error .mismatch
      | none => do collect key decoder (some (← decoder outline)) rest
    else do
      hold outline
      let (found, others) ← collect key decoder found rest
      return (found, (some name, outline) :: others)

/-- The outline of a member. -/
def find? (key : String) (members : List (Option String × Outline)) : Option Outline :=
  members.lookup (some key)

/-- A member that a record has to have. -/
def field {α : Type} (key : String) (decoder : Decoder α)
    (members : List (Option String × Outline)) : Except DecodeError α :=
  match find? key members with
  | some outline => decoder outline
  | none => .error .mismatch

/-- A member that a record may have. -/
def fieldD {α : Type} (key : String) (decoder : Decoder α) (default : α)
    (members : List (Option String × Outline)) : Except DecodeError α :=
  match find? key members with
  | some outline => decoder outline
  | none => .ok default

/-- The first item of a record written as an array, and the items after it. -/
def next {α : Type} (decoder : Decoder α) :
    List Outline → Except DecodeError (α × List Outline)
  | [] => .error .mismatch
  | item :: rest => do return (← decoder item, rest)

/-- The first item of a record written as an array, if there is one. -/
def nextD {α : Type} (decoder : Decoder α) (default : α) :
    List Outline → Except DecodeError (α × List Outline)
  | [] => .ok (default, [])
  | item :: rest => do return (← decoder item, rest)

/-- A record written as an array ends with its last item. -/
def finish {α : Type} (value : α) : List Outline → Except DecodeError α
  | [] => .ok value
  | _ :: _ => .error .surplus

/-! ## Entry points -/

/-- Decode a text. After the value there may be white space only, and an array that goes on too
long counts as malformed. -/
def ofText {α : Type} (decoder : Decoder α) (text : String) : Except DecodeError α :=
  let (outline, isEnd) := Outline.read text
  match decoder outline with
  | .ok value => if isEnd then .ok value else .error .malformed
  | .error .surplus => .error .malformed
  | .error e => .error e

/-- The outcome for a value that was held before: what is wrong with it is its shape. -/
def held {α : Type} (outcome : Except DecodeError α) : Except DecodeError α :=
  outcome.mapError fun _ => .mismatch

/-- Decode a value. -/
def ofJson {α : Type} (decoder : Decoder α) (value : Json) : Except DecodeError α :=
  held (decoder value.outline)

end Decoder

end RowSync.Json
