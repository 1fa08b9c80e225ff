import Settlement.Bytes

/-!
# Deliveries

A message as it is handed to a consumer. It stays pending until it is acknowledged.
-/

namespace Settlement

/-- A message that was handed out; `redelivered` when it had been handed out before. -/
structure Delivery where
  id : String
  queue : String
  body : ByteArray
  redelivered : Bool
  deriving DecidableEq, Inhabited

end Settlement
