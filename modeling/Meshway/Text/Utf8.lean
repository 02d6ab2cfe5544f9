import Meshway.Bytes
set_option autoImplicit false

/-!
# Text as octets

Text is carried as strict UTF-8: overlong forms, surrogates and numbers beyond
the last code point are refused.
-/

namespace Meshway.Utf8

/-- The octets of a text. -/
def encode (s : String) : Bytes := s.toUTF8.data.toList

/-- The text with the given octets, if they are well-formed. -/
def decode? (bs : Bytes) : Option String := String.fromUTF8? bs.toByteArray

/-- The number of octets of a text. -/
def size (s : String) : Nat := (encode s).length

theorem toByteArray_encode (s : String) : (encode s).toByteArray = s.toUTF8 := by
  apply ByteArray.ext
  simp [encode, List.data_toByteArray]

/-- Reading a written text gives the text back. -/
theorem decode?_encode (s : String) : decode? (encode s) = some s := by
  have h : s.toUTF8.IsValidUTF8 := s.isValidUTF8
  rw [decode?, toByteArray_encode, String.fromUTF8?, dif_pos h]
  rfl

/-- Only the octets of a text are read, and they are read as that text. -/
theorem encode_of_decode? {bs : Bytes} {s : String} (h : decode? bs = some s) :
    encode s = bs := by
  rw [decode?, String.fromUTF8?] at h
  split at h
  · cases h
    show (bs.toByteArray).data.toList = bs
    simp [List.data_toByteArray]
  · cases h

end Meshway.Utf8
