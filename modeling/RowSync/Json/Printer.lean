import RowSync.Json.Basic
import RowSync.Text.Hex

/-!
# JSON Text

The compact text of a JSON value. Doubles keep a fraction or an exponent, so that they read back as
doubles and not as integers.
-/

namespace RowSync

namespace Binary64

/-- From this many places before the point on, a double is written with an exponent. -/
def maxPlaces : Int := 16

/-- Down to this many zeros after the point, a double is written without an exponent. -/
def maxLeadingZeros : Int := 4

/-- An exponent with its sign. -/
def exponentText (exponent : Int) : String :=
  if exponent < 0 then "e-" ++ toString exponent.natAbs else "e+" ++ toString exponent.natAbs

/-- The text of the positive number `digits * 10 ^ power`. -/
def decimalText (digits : Nat) (power : Int) : String :=
  let ds := (toString digits).toList
  let places : Int := ds.length + power
  if 0 ≤ power ∧ places ≤ maxPlaces then
    String.ofList (ds ++ List.replicate power.toNat '0') ++ ".0"
  else if 0 < places ∧ places ≤ maxPlaces then
    String.ofList (ds.take places.toNat) ++ "." ++ String.ofList (ds.drop places.toNat)
  else if -maxLeadingZeros ≤ places ∧ places ≤ 0 then
    "0." ++ String.ofList (List.replicate (-places).toNat '0' ++ ds)
  else if ds.length = 1 then
    String.ofList ds ++ exponentText (places - 1)
  else
    String.ofList (ds.take 1) ++ "." ++ String.ofList (ds.drop 1) ++ exponentText (places - 1)

/-- The shortest text that reads back as the number. -/
def text (x : Binary64) : String :=
  let magnitude := if x.fields = 0 then "0.0" else
    let (digits, power) := shortest x.fields
    decimalText digits power
  if x.negative then "-" ++ magnitude else magnitude

end Binary64

namespace Json

/-- A character inside a string. -/
def escapeChar (c : Char) : List Char :=
  match c with
  | '\"' => ['\\', '\"']
  | '\\' => ['\\', '\\']
  | '\x08' => ['\\', 'b']
  | '\x0c' => ['\\', 'f']
  | '\n' => ['\\', 'n']
  | '\r' => ['\\', 'r']
  | '\t' => ['\\', 't']
  | c =>
    if c.toNat < 0x20 then
      ['\\', 'u', '0', '0', Text.hexDigit (c.toNat / 16), Text.hexDigit (c.toNat % 16)]
    else [c]

/-- A string in quotes. -/
def stringText (s : String) : String :=
  "\"" ++ String.ofList (s.toList.flatMap escapeChar) ++ "\""

/-- The text of a number. -/
def Number.text : Number → String
  | .int value => toString value
  | .double value => value.text

mutual

/-- The compact text of a value. -/
def text : Json → String
  | .null => "null"
  | .bool value => if value then "true" else "false"
  | .num value => value.text
  | .str value => stringText value
  | .arr items => "[" ++ ",".intercalate (itemTexts items) ++ "]"
  | .obj members => "\x7b" ++ ",".intercalate (memberTexts members) ++ "\x7d"

/-- The texts of the items. -/
def itemTexts : List Json → List String
  | [] => []
  | item :: rest => item.text :: itemTexts rest

/-- The texts of the members. -/
def memberTexts : List (String × Json) → List String
  | [] => []
  | (key, value) :: rest => (stringText key ++ ":" ++ value.text) :: memberTexts rest

end

end Json

end RowSync
