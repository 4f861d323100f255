import RowSync.Json.Basic
import RowSync.Text.Hex

/-!
# JSON Tokens

The tokens of a JSON text. Reading never fails: text that is no token becomes one `fault` token
that ends the list. A number too large for a double and a string with a lone surrogate are tokens
without a value, since a reader that skips over them does not mind.
-/

namespace RowSync.Json

/-- A token of a JSON text. -/
inductive Token where
  | openArray
  | closeArray
  | openObject
  | closeObject
  | comma
  | colon
  | null
  | bool (value : Bool)
  | num (value : Option Number)
  | str (value : Option String)
  | fault
deriving DecidableEq, Repr

/-- JSON white space. -/
def isBlank (c : Char) : Bool :=
  c == ' ' || c == '\t' || c == '\n' || c == '\r'

/-! ## Strings -/

/-- The character that a one-letter escape stands for. -/
def shortEscape? : Char → Option Char
  | '\"' => some '\"'
  | '\\' => some '\\'
  | '/' => some '/'
  | 'b' => some '\x08'
  | 'f' => some '\x0c'
  | 'n' => some '\n'
  | 'r' => some '\r'
  | 't' => some '\t'
  | _ => none

/-- Read a string up to its closing quote: its code points, surrogates that were escaped one by one
included, and the text after the quote. -/
def scanString : List Char → Option (List Nat × List Char)
  | [] => none
  | '\"' :: rest => some ([], rest)
  | '\\' :: 'u' :: a :: b :: c :: d :: rest => do
    let unit ← Text.hexNumber? [a, b, c, d]
    let (units, after) ← scanString rest
    return (unit :: units, after)
  | '\\' :: c :: rest => do
    let escaped ← shortEscape? c
    let (units, after) ← scanString rest
    return (escaped.toNat :: units, after)
  | c :: rest =>
    if c.toNat < 0x20 ∨ c = '\\' then none
    else do
      let (units, after) ← scanString rest
      return (c.toNat :: units, after)

/-- The first half of a surrogate pair. -/
def isHighSurrogate (unit : Nat) : Bool := 0xD800 ≤ unit && unit < 0xDC00

/-- The second half of a surrogate pair. -/
def isLowSurrogate (unit : Nat) : Bool := 0xDC00 ≤ unit && unit < 0xE000

/-- The character of a surrogate pair. -/
def pairedChar (high low : Nat) : Char :=
  Char.ofNat (0x10000 + (high - 0xD800) * 0x400 + (low - 0xDC00))

/-- Join surrogate pairs to characters; a surrogate without its other half has no character. -/
def joinSurrogates : List Nat → Option (List Char)
  | [] => some []
  | unit :: rest =>
    if isHighSurrogate unit then
      match rest with
      | low :: rest =>
        if isLowSurrogate low then (joinSurrogates rest).map (pairedChar unit low :: ·) else none
      | [] => none
    else if isLowSurrogate unit then none
    else (joinSurrogates rest).map (Char.ofNat unit :: ·)

/-- The text after a string is shorter than the string with it. -/
theorem length_scanString {text after : List Char} {units : List Nat}
    (h : scanString text = some (units, after)) : after.length < text.length := by
  fun_induction scanString text generalizing units after with
  | case1 => simp at h
  | case2 rest =>
    obtain ⟨-, rfl⟩ := by simpa using h
    simp
  | case3 a b c d rest ih =>
    simp only [bind, Option.bind_eq_some_iff, Prod.exists] at h
    obtain ⟨unit, -, units, tail, hrest, ⟨⟩⟩ := h
    have := ih hrest
    simp only [List.length_cons]
    omega
  | case4 c rest _ ih =>
    simp only [bind, Option.bind_eq_some_iff, Prod.exists] at h
    obtain ⟨unit, -, units, tail, hrest, ⟨⟩⟩ := h
    have := ih hrest
    simp only [List.length_cons]
    omega
  | case5 => simp at h
  | case6 c rest _ _ _ hc ih =>
    simp only [bind, Option.bind_eq_some_iff, Prod.exists] at h
    obtain ⟨units, tail, hrest, h⟩ := h
    have := ih hrest
    grind

/-! ## Numbers -/

/-- The decimal digits at the front of a text, and the text after them. -/
def scanDigits (text : List Char) : List Nat × List Char :=
  ((text.takeWhile Char.isDigit).map fun c => c.toNat - '0'.toNat, text.dropWhile Char.isDigit)

/-- The text after digits is shorter if there are digits. -/
theorem length_scanDigits (text : List Char) :
    (scanDigits text).2.length + (scanDigits text).1.length = text.length := by
  have := congrArg List.length (text.takeWhile_append_dropWhile (p := Char.isDigit))
  simp only [List.length_append] at this
  simp only [scanDigits, List.length_map]
  omega

/-- Whether a number fits in a 64-bit word. -/
def fitsWord (n : Nat) : Bool := n < UInt64.size

/-- Take up digits before the point as long as the number fits in a word, and count the rest. -/
def wholeDigits (n : Nat) : List Nat → Nat × Nat
  | [] => (n, 0)
  | d :: ds => if fitsWord (10 * n + d) then wholeDigits (10 * n + d) ds else (n, ds.length + 1)

/-- Take up digits after the point as long as the number fits in a word, and count them. -/
def fractionDigits (n : Nat) : List Nat → Nat × Nat
  | [] => (n, 0)
  | d :: ds =>
    if fitsWord (10 * n + d) then
      let (m, places) := fractionDigits (10 * n + d) ds
      (m, places + 1)
    else (n, 0)

/-- The digits of a literal that fit in a word, and the power of ten they are to be multiplied by:
a digit before the point that does not fit counts as a place, one after the point is dropped. -/
def leadingDigits (whole fraction : List Nat) : Nat × Int :=
  let (n, places) := wholeDigits 0 whole
  let (m, decimals) := fractionDigits n fraction
  (m, (places : Int) - decimals)

/-- The number of a literal, from its digits before and after the point and its exponent. There is
none if it is too large. -/
def Number.ofLiteral? (negative : Bool) (whole fraction : List Nat) (exponent : Option Int) :
    Option Number :=
  let value : Nat := whole.foldl (fun n d => 10 * n + d) 0
  let integral := fraction.isEmpty && exponent.isNone
  if integral && !negative && fitsWord value then some (.int value)
  else if integral && negative && 0 < value && 2 * value ≤ UInt64.size then
    some (.int (-(value : Int)))
  else
    let (digits, power) := leadingDigits whole fraction
    (Binary64.ofDecimal? negative digits (power + exponent.getD 0)).map .double

/-- Read the digits before the point, without superfluous zeros in front. -/
def scanWhole (text : List Char) : Option (List Nat × List Char) :=
  let (digits, rest) := scanDigits text
  if digits.length = 0 ∨ (1 < digits.length ∧ digits.head? = some 0) then none
  else some (digits, rest)

/-- Read the point and the digits after it, if there is a point. -/
def scanFraction : List Char → Option (List Nat × List Char)
  | '.' :: text =>
    match scanDigits text with
    | ([], _) => none
    | scanned => some scanned
  | text => some ([], text)

/-- Read the sign of an exponent. -/
def scanSign : List Char → Bool × List Char
  | '-' :: text => (true, text)
  | '+' :: text => (false, text)
  | text => (false, text)

/-- Read an exponent, if there is one. -/
def scanExponent (text : List Char) : Option (Option Int × List Char) :=
  match text with
  | c :: rest =>
    if c = 'e' ∨ c = 'E' then
      let (negative, rest) := scanSign rest
      match scanDigits rest with
      | ([], _) => none
      | (digits, rest) =>
        let value : Int := (digits.foldl (fun n d => 10 * n + d) 0 : Nat)
        some (some (if negative then -value else value), rest)
    else some (none, text)
  | [] => some (none, text)

/-- Read a number after its sign. -/
def scanNumber (negative : Bool) (text : List Char) : Option (Option Number × List Char) := do
  let (whole, text) ← scanWhole text
  let (fraction, text) ← scanFraction text
  let (exponent, text) ← scanExponent text
  return (Number.ofLiteral? negative whole fraction exponent, text)

theorem length_scanWhole {text after : List Char} {digits : List Nat}
    (h : scanWhole text = some (digits, after)) : after.length < text.length := by
  have := length_scanDigits text
  unfold scanWhole at h
  grind

theorem length_scanFraction {text after : List Char} {digits : List Nat}
    (h : scanFraction text = some (digits, after)) : after.length ≤ text.length := by
  unfold scanFraction at h
  split at h
  · rename_i rest
    have := length_scanDigits rest
    grind
  · grind

theorem length_scanSign (text : List Char) : (scanSign text).2.length ≤ text.length := by
  unfold scanSign
  split <;> simp

theorem length_scanExponent {text after : List Char} {exponent : Option Int}
    (h : scanExponent text = some (exponent, after)) : after.length ≤ text.length := by
  unfold scanExponent at h
  split at h
  · rename_i c rest
    have := length_scanSign rest
    have := length_scanDigits (scanSign rest).2
    grind
  · grind

/-- The text after a number is shorter than the number with it. -/
theorem length_scanNumber {negative : Bool} {text after : List Char} {number : Option Number}
    (h : scanNumber negative text = some (number, after)) : after.length < text.length := by
  unfold scanNumber at h
  simp only [bind, Option.bind_eq_some_iff, pure, Option.some.injEq, Prod.mk.injEq,
    Prod.exists] at h
  obtain ⟨_, _, h1, _, _, h2, _, _, h3, -, rfl⟩ := h
  have := length_scanWhole h1
  have := length_scanFraction h2
  have := length_scanExponent h3
  omega

/-! ## Token lists -/

/-- The number token of a text, and the text after it. -/
def scanNumberToken (negative : Bool) (text : List Char) : Token × List Char :=
  match scanNumber negative text with
  | some (value, rest) => (.num value, rest)
  | none => (.fault, [])

/-- The string token of a text without its opening quote, and the text after it. -/
def scanStringToken (text : List Char) : Token × List Char :=
  match scanString text with
  | some (units, rest) => (.str ((joinSurrogates units).map String.ofList), rest)
  | none => (.fault, [])

/-- The token that begins with a character, given the text after that character; and the text after
the token. -/
def scanToken (c : Char) (text : List Char) : Token × List Char :=
  match c, text with
  | '[', rest => (.openArray, rest)
  | ']', rest => (.closeArray, rest)
  | '\x7b', rest => (.openObject, rest)
  | '\x7d', rest => (.closeObject, rest)
  | ',', rest => (.comma, rest)
  | ':', rest => (.colon, rest)
  | 'n', 'u' :: 'l' :: 'l' :: rest => (.null, rest)
  | 't', 'r' :: 'u' :: 'e' :: rest => (.bool true, rest)
  | 'f', 'a' :: 'l' :: 's' :: 'e' :: rest => (.bool false, rest)
  | '\"', rest => scanStringToken rest
  | '-', rest => scanNumberToken true rest
  | c, rest => if c.isDigit then scanNumberToken false (c :: rest) else (.fault, [])

theorem length_scanToken (c : Char) (text : List Char) :
    (scanToken c text).2.length ≤ text.length := by
  have hnumber (negative : Bool) (digits : List Char) :
      (scanNumberToken negative digits).2.length ≤ digits.length - 1 := by
    unfold scanNumberToken
    split
    · have := length_scanNumber ‹_›
      grind
    · simp
  have hstring (units : List Char) : (scanStringToken units).2.length ≤ units.length := by
    unfold scanStringToken
    split
    · have := length_scanString ‹_›
      grind
    · simp
  unfold scanToken
  split
  any_goals grind

/-- The tokens of a text. -/
def tokens : List Char → List Token
  | [] => []
  | c :: text =>
    if isBlank c then tokens text
    else (scanToken c text).1 :: tokens (scanToken c text).2
termination_by text => text.length
decreasing_by
  · simp
  · have := length_scanToken c text
    simp only [List.length_cons]
    omega

end RowSync.Json
