/-!
# Bytes

The bodies of messages are bytes, and are equal when all their bytes are.
-/

namespace Settlement

/-- Bytes are compared one by one. -/
instance (priority := high) bytesDecidableEq : DecidableEq ByteArray := ByteArray.decEq

/-- A text is read back from its bytes. -/
theorem fromUTF8?_toUTF8 (s : String) : String.fromUTF8? s.toUTF8 = some s := by
  rw [String.toUTF8_eq_toByteArray]
  unfold String.fromUTF8?
  rw [dif_pos s.isValidUTF8]
  rfl

end Settlement
