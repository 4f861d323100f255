/-!
# Binary64 Numbers

Finite double-precision numbers in exact arithmetic on natural numbers: rounding a quotient to the
nearest double, the double a decimal literal denotes, and the fewest decimal digits that read back.
-/

namespace RowSync

/-- A finite double-precision number. -/
structure Binary64 where
  /-- The sign, which zero has too. -/
  negative : Bool
  /-- The exponent and fraction fields, read as one number. -/
  fields : Nat
deriving DecidableEq, Repr, Inhabited

namespace Binary64

/-- The number of fractions in one binade. -/
def binadeSize : Nat := Nat.pow 2 52

/-- The fields from which on a word no longer stands for a finite number. -/
def infinityFields : Nat := 2047 * binadeSize

/-- The integer significand that the fields denote. -/
def significand (fields : Nat) : Nat :=
  if fields < binadeSize then fields else fields % binadeSize + binadeSize

/-- The power of two of the significand, counted up from the least one. -/
def binade (fields : Nat) : Nat :=
  fields / binadeSize - 1

/-- The least positive double is `1 / unitsPerOne`. -/
def unitsPerOne : Nat := Nat.pow 2 1074

/-- The magnitude, counted in least positive doubles. -/
def units (fields : Nat) : Nat :=
  significand fields * Nat.pow 2 (binade fields)

/-- The integer nearest to a quotient; of two equally near ones the even one. -/
def roundDiv (num den : Nat) : Nat :=
  let floor := num / den
  let twice := 2 * (num % den)
  if twice < den then floor
  else if den < twice then floor + 1
  else floor + floor % 2

/-- The fields of the double nearest to `num / den`, beyond `infinityFields` if there is none. -/
def nearest (num den : Nat) : Nat :=
  let scaled := num * unitsPerOne
  let shift := Nat.log2 (scaled / den) - 52
  shift * binadeSize + roundDiv scaled (den * Nat.pow 2 shift)

/-- The nearest double to the product of two. -/
def mulFields (a b : Nat) : Nat :=
  nearest (units a * units b) (unitsPerOne * unitsPerOne)

/-- The nearest double to the quotient of two. -/
def divFields (a b : Nat) : Nat :=
  nearest (units a) (units b)

/-- The largest power of ten that is used as one factor. -/
def maxTenPower : Nat := 308

/-- The nearest double to a power of ten. -/
def tenPower (exponent : Nat) : Nat :=
  nearest (Nat.pow 10 exponent) 1

/-- Divide by a power of ten, in steps of at most the largest factor. -/
def divTenPower (fields exponent : Nat) : Nat :=
  if exponent ≤ maxTenPower then divFields fields (tenPower exponent)
  else if fields = 0 then 0
  else divTenPower (divFields fields (tenPower maxTenPower)) (exponent - maxTenPower)
termination_by exponent
decreasing_by
  rename_i h _
  have : 0 < maxTenPower := by decide
  omega

/-- The double for `digits * 10 ^ exponent`: the digits and the power of ten are rounded first and
then their product or quotient. There is none if the result is too large. -/
def ofDecimal? (negative : Bool) (digits : Nat) (exponent : Int) : Option Binary64 :=
  let start := nearest digits 1
  match exponent with
  | .ofNat e =>
    if e ≤ maxTenPower then
      let fields := mulFields start (tenPower e)
      if fields < infinityFields then some ⟨negative, fields⟩ else none
    else if start = 0 then some ⟨negative, 0⟩
    else none
  | .negSucc e => some ⟨negative, divTenPower start (e + 1)⟩

/-- The number of leading zeros after the point of a quotient below one, plus one. -/
def leadingPlaces (num den : Nat) : Nat → Nat
  | 0 => 1
  | fuel + 1 => if den ≤ 10 * num then 1 else 1 + leadingPlaces (10 * num) den fuel

/-- The least power of ten above a positive quotient. -/
def decimalMagnitude (num den : Nat) : Int :=
  if den ≤ num then ((Nat.toDigits 10 (num / den)).length : Int)
  else 1 - (leadingPlaces num den 400 : Int)

/-- The multiple of `10 ^ power` nearest to a positive double, if it reads back as that double. -/
def onGrid? (fields : Nat) (power : Int) : Option Nat :=
  let s := significand fields
  let b := binade fields
  let below := if s = binadeSize ∧ 0 < b then 1 else 2
  let step := 4 * Nat.pow 10 power.toNat * unitsPerOne
  let scale := Nat.pow 10 (-power).toNat * Nat.pow 2 b
  let value := 4 * s * scale
  let low := (4 * s - below) * scale
  let high := (4 * s + 2) * scale
  let readsBack (c : Nat) : Bool :=
    if s % 2 = 0 then low ≤ c * step && c * step ≤ high else low < c * step && c * step < high
  let down := value / step
  let nearer := roundDiv value step
  if readsBack nearer then some nearer
  else [down, down + 1].find? readsBack

/-- The fewest digits, and the power of ten they count, that read back as a positive double. -/
def shortest (fields : Nat) : Nat × Int :=
  let magnitude := decimalMagnitude (units fields) unitsPerOne
  let attempt (n : Nat) : Option (Nat × Int) :=
    (onGrid? fields (magnitude - (n + 1))).map fun digits =>
      if digits = Nat.pow 10 (n + 1) then (1, magnitude) else (digits, magnitude - (n + 1))
  ((List.range 17).findSome? attempt).getD (0, 0)

end Binary64

end RowSync
