import Settlement.Blockchain

/-!
# Names of the queues

Each chain has a queue of confirmation requests, and mails to be sent have one of their own.
-/

namespace Settlement

namespace Queue

/-- The queue of a chain's confirmation requests. -/
def confirmations : Blockchain → String
  | .ethereum => "eth-payment-confirmation-queue"
  | .dash => "dash-payment-confirmation-queue"
  | .bitcoinCash => "bch-payment-confirmation-queue"

/-- The queue of mails to be sent. -/
def emails : String := "email-send-queue"

theorem confirmations_ne_emails (chain : Blockchain) : confirmations chain ≠ emails := by
  cases chain <;> decide

end Queue

end Settlement
