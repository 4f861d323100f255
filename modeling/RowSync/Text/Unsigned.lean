/-!
# Unsigned Numbers in Text

A number is written in ASCII digits; a plus sign and any number of zeros may stand in front.
-/

namespace RowSync.Text

/-- The digits of a number without its optional plus sign. -/
def withoutPlus : List Char → List Char
  | '+' :: digits => digits
  | digits => digits

/-- The number that a text writes, if it is below the limit. -/
def unsigned? (limit : Nat) (s : String) : Option Nat :=
  let digits := withoutPlus s.toList
  if digits.isEmpty || !digits.all Char.isDigit then none
  else
    let value := digits.foldl (fun n c => 10 * n + (c.toNat - '0'.toNat)) 0
    if value < limit then some value else none

end RowSync.Text
