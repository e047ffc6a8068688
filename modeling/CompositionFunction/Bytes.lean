/-!
# Bytes and text

Files and connection details are bytes. A text is bytes in UTF-8; not all bytes are a text.
-/

set_option autoImplicit false

namespace CompositionFunction

/-- A sequence of bytes. -/
abbrev Bytes : Type := List UInt8

/-- The UTF-8 bytes of a text. -/
def utf8 (s : String) : Bytes := s.toList.flatMap String.utf8EncodeChar

/-- The text that the bytes are in UTF-8, if they are one. -/
def ofUtf8? (bytes : Bytes) : Option String := String.fromUTF8? bytes.toByteArray

/-- A text is read back from its bytes. -/
@[simp] theorem ofUtf8?_utf8 (s : String) : ofUtf8? (utf8 s) = some s := by
  have hbytes : (utf8 s).toByteArray = s.toByteArray := String.utf8Encode_toList
  rw [ofUtf8?, hbytes, String.fromUTF8?, dif_pos s.isValidUTF8]
  rfl

end CompositionFunction
