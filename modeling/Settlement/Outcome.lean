import Settlement.Decimal
import Settlement.Failure
import Settlement.Json.Fault

/-!
# Outcomes of a request

A request ends confirmed or rejected, and its message is then taken off the queue, or it is
abandoned and the message is left for another delivery.
-/

namespace Settlement

/-- Why a message does not lead to a confirmed payment. -/
inductive Rejection where
  | malformed (reason : Json.Complaint)
  | unsupportedVersion (version : Nat)
  | paymentNotFound
  | blockchainMismatch
  | userMismatch
  | alreadyConfirmed
  | forged (reason : String)
  | invalidPayment (reason : String)
  | verification (cause : ConfirmationError)
  | store (reason : String)
  deriving DecidableEq

namespace Rejection

def code : Rejection → String
  | malformed _ => "MALFORMED"
  | unsupportedVersion _ => "UNSUPPORTED_VERSION"
  | paymentNotFound => "PAYMENT_NOT_FOUND"
  | blockchainMismatch => "BLOCKCHAIN_MISMATCH"
  | userMismatch => "USER_MISMATCH"
  | alreadyConfirmed => "ALREADY_CONFIRMED"
  | forged _ => "FORGED_REQUEST"
  | invalidPayment _ => "INVALID_PAYMENT"
  | verification cause => cause.code
  | store _ => "STORE_ERROR"

/-- The message of a rejection, given how the parser words the fault of a text. -/
def message (parser : Json.Fault → String) : Rejection → String
  | malformed reason => s!"malformed message: {reason.text parser}"
  | unsupportedVersion version => s!"unsupported message version {version}"
  | paymentNotFound => "payment not found"
  | blockchainMismatch => "payment belongs to another blockchain"
  | userMismatch => "payment belongs to another user"
  | alreadyConfirmed => "payment already confirmed"
  | forged reason => s!"forged request: {reason}"
  | invalidPayment reason => s!"invalid payment record: {reason}"
  | verification cause => s!"verification failed: {cause.message}"
  | store reason => s!"store error: {reason}"

end Rejection

/-- What to do with a delivery once it has been handled: take it off the queue, or leave it for
another delivery. -/
inductive Disposition where
  | ack
  | abandon
  deriving DecidableEq, Inhabited

namespace Disposition

def name : Disposition → String
  | ack => "ack"
  | abandon => "abandon"

end Disposition

/-- How a request ends. -/
inductive Outcome where
  | confirmed (credits : Decimal)
  | rejected (reason : Rejection)
  | abandoned
  deriving DecidableEq

namespace Outcome

def disposition : Outcome → Disposition
  | confirmed _ => .ack
  | rejected _ => .ack
  | abandoned => .abandon

end Outcome

end Settlement
