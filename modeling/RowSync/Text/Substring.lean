/-!
# Substrings

Whether a text occurs inside another.
-/

namespace RowSync.Text

/-- Whether the characters occur one after another in a list. -/
def occursIn (part : List Char) : List Char → Bool
  | [] => part.isEmpty
  | c :: rest => part.isPrefixOf (c :: rest) || occursIn part rest

/-- Whether the text has the other as a part. -/
def hasPart (text part : String) : Bool := occursIn part.toList text.toList

end RowSync.Text
