import RowSync.Text.Hex

/-!
# Percent-Encoding

Text in the segments of a path. Decoding is lenient: an escape that is not followed by two
hexadecimal digits stands for itself, and so does a plus sign. The bytes have to be UTF-8.
-/

namespace RowSync.Text

/-- The byte that two hexadecimal digits write. -/
def hexByte? (high low : Char) : Option UInt8 :=
  (hexNumber? [high, low]).map UInt8.ofNat

/-- The bytes that a percent-encoded text stands for. -/
def percentBytes : List Char → List UInt8
  | '%' :: high :: low :: rest =>
    match hexByte? high low with
    | some byte => byte :: percentBytes rest
    | none => '%'.toNat.toUInt8 :: percentBytes (high :: low :: rest)
  | c :: rest => String.utf8EncodeChar c ++ percentBytes rest
  | [] => []

/-- The text that a percent-encoded text stands for, if its bytes are UTF-8. -/
def percentDecode? (s : String) : Option String :=
  String.fromUTF8? ⟨(percentBytes s.toList).toArray⟩

/-- Whether a character is written as it is. -/
def isUnreserved (c : Char) : Bool :=
  c.isAlphanum || c == '-' || c == '.' || c == '_' || c == '~'

/-- A character in percent-encoded text. -/
def percentChar (c : Char) : List Char :=
  if isUnreserved c then [c]
  else (String.utf8EncodeChar c).flatMap fun byte =>
    ['%', hexDigit (byte.toNat / 16), hexDigit (byte.toNat % 16)]

/-- The percent-encoded form of a text. -/
def percentEncode (s : String) : String :=
  String.ofList (s.toList.flatMap percentChar)

end RowSync.Text
