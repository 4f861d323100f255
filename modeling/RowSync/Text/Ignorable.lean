/-!
# Ignorable Characters

The code points that are left out where they cannot be shown (the property
`Default_Ignorable_Code_Point`): joiners, fillers, variation selectors and the like. Some of them
are letters without a visible form, such as the Hangul fillers.
-/

namespace RowSync.Text

/-- The ranges of ignorable code points, ends included, in increasing order. -/
def ignorableRanges : Array (Nat × Nat) := #[
  (0xad, 0xad), (0x34f, 0x34f), (0x61c, 0x61c), (0x115f, 0x1160), (0x17b4, 0x17b5),
  (0x180b, 0x180f), (0x200b, 0x200f), (0x202a, 0x202e), (0x2060, 0x206f), (0x3164, 0x3164),
  (0xfe00, 0xfe0f), (0xfeff, 0xfeff), (0xffa0, 0xffa0), (0xfff0, 0xfff8), (0x1bca0, 0x1bca3),
  (0x1d173, 0x1d17a), (0xe0000, 0xe0fff)]

/-- Whether a character is left out where it cannot be shown. -/
def isIgnorable (c : Char) : Bool :=
  ignorableRanges.any fun range => range.1 ≤ c.toNat && c.toNat ≤ range.2

end RowSync.Text
