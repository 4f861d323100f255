import Mathlib.Data.String.Basic

/-!
# Texts in Byte Order

Texts are compared by their characters, one after the other. This is the order of their bytes in
UTF-8 (`lt_iff_utf8Bytes_lt`), which is how a store and a database sort row ids: of two characters
the smaller one has the smaller byte where their encodings first differ.
-/

namespace RowSync

/-- The bytes of a text in UTF-8. -/
def utf8Bytes (text : String) : List UInt8 := text.toByteArray.data.toList

/-- The bytes of a text are those of its characters. -/
theorem utf8Bytes_eq (text : String) :
    utf8Bytes text = text.toList.flatMap String.utf8EncodeChar := by
  calc utf8Bytes text
      = utf8Bytes (String.ofList text.toList) := by rw [String.ofList_toList]
    _ = text.toList.flatMap String.utf8EncodeChar := by
      rw [utf8Bytes, String.toByteArray_ofList, List.utf8Encode, List.data_toByteArray]

/-- The bytes of a smaller character are smaller where they first differ, whatever follows. -/
theorem utf8EncodeChar_append_lt {a b : Char} (h : a < b) (rest rest' : List UInt8) :
    String.utf8EncodeChar a ++ rest < String.utf8EncodeChar b ++ rest' := by
  have hlt : a.val.toNat < b.val.toNat := UInt32.lt_iff_toNat_lt.1 (Char.lt_def.1 h)
  have hmax : b.val.toNat < 0x110000 := by
    rcases b.valid with hlow | ⟨-, hhigh⟩ <;> omega
  rw [String.utf8EncodeChar, String.utf8EncodeChar]
  generalize a.val.toNat = m at hlt ⊢
  generalize b.val.toNat = n at hlt hmax ⊢
  have hbyte (k : Nat) (hk : k < 256) : (UInt8.ofNat k).toNat = k := Nat.mod_eq_of_lt hk
  -- Every byte after the first one has the next six bits.
  have htwice (k : Nat) : k / 4096 = k / 64 / 64 := by omega
  have hthrice (k : Nat) : k / 262144 = k / 64 / 64 / 64 := by omega
  -- The lengths of the encodings are known from the numbers, and then so is each byte.
  split_ifs <;>
    simp (disch := omega) only [List.cons_append, List.nil_append, List.cons_lt_cons_iff,
      UInt8.lt_iff_toNat_lt, ← UInt8.toNat_inj, hbyte, htwice, hthrice] <;>
    omega

/-- Characters one after the other are encoded in their order. -/
theorem flatMap_utf8EncodeChar_lt {l l' : List Char} (h : l < l') :
    l.flatMap String.utf8EncodeChar < l'.flatMap String.utf8EncodeChar := by
  induction l generalizing l' with
  | nil =>
    cases l' with
    | nil => exact absurd h (List.lt_irrefl _)
    | cons b rest' =>
      -- No character is encoded by nothing.
      rw [List.flatMap_cons, List.flatMap_nil]
      cases hbytes : String.utf8EncodeChar b with
      | nil => exact absurd hbytes String.utf8EncodeChar_ne_nil
      | cons byte bytes => exact List.nil_lt_cons _ _
  | cons a rest ih =>
    cases l' with
    | nil => exact absurd h (List.not_lt_nil _)
    | cons b rest' =>
      rw [List.flatMap_cons, List.flatMap_cons]
      rcases List.cons_lt_cons_iff.1 h with hlt | ⟨rfl, hrest⟩
      · exact utf8EncodeChar_append_lt hlt _ _
      · exact List.append_left_lt (ih hrest)

/-- Texts are ordered as their bytes are. -/
theorem lt_iff_utf8Bytes_lt {a b : String} : a < b ↔ utf8Bytes a < utf8Bytes b := by
  have hbytes {a b : String} (h : a < b) : utf8Bytes a < utf8Bytes b := by
    rw [utf8Bytes_eq, utf8Bytes_eq]
    exact flatMap_utf8EncodeChar_lt (String.lt_iff_toList_lt.1 h)
  refine ⟨hbytes, fun h => ?_⟩
  rcases lt_trichotomy a b with hlt | rfl | hgt
  · exact hlt
  · exact absurd h (List.lt_irrefl _)
  · exact absurd (hbytes hgt) (List.lt_asymm h)

end RowSync
