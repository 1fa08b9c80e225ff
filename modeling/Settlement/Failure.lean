import Settlement.Duration

/-!
# Why a payment is not confirmed

A transaction may be seen and yet be no acceptable payment (`ValidationError`), or the confirmation
may not come to an end (`ConfirmationError`). Only failures that another attempt may clear up are
retryable. The failures of the queue and of the store follow.
-/

namespace Settlement

/-- A transaction was seen and is no acceptable payment. -/
inductive ValidationError where
  | txFailed (status : String)
  | wrongDestination (expected actual : String)
  | unexpectedToken (expected actual : String)
  | missingTokenTransfer
  | noLogs
  | wrongSender (expected actual : String)
  | insufficientValue (expected actual : String)
  | lockTimeNotReached (lockTime current : Nat)
  | invalidSender (address : String)
  | invalidRecipient (address : String)
  deriving DecidableEq

namespace ValidationError

def code : ValidationError → String
  | txFailed _ => "TX_FAILED"
  | wrongDestination _ _ => "WRONG_DESTINATION"
  | unexpectedToken _ _ => "UNEXPECTED_TOKEN"
  | missingTokenTransfer => "MISSING_TOKEN_TRANSFER"
  | noLogs => "NO_LOGS"
  | wrongSender _ _ => "WRONG_SENDER"
  | insufficientValue _ _ => "INSUFFICIENT_VALUE"
  | lockTimeNotReached _ _ => "LOCK_TIME_NOT_REACHED"
  | invalidSender _ => "INVALID_SENDER"
  | invalidRecipient _ => "INVALID_RECIPIENT"

def message : ValidationError → String
  | txFailed status => s!"Transaction status is not success: {status}"
  | wrongDestination expected actual =>
    s!"Destination {actual} is not the payment contract {expected}"
  | unexpectedToken expected actual =>
    s!"Token transfer emitted by {actual}, expected {expected}"
  | missingTokenTransfer => "No token transfer found in transaction"
  | noLogs => "No logs were emitted"
  | wrongSender expected actual =>
    s!"Sender {actual} does not match registered address {expected}"
  | insufficientValue expected actual => s!"Insufficient value: {actual} < {expected}"
  | lockTimeNotReached lockTime current =>
    s!"Lock time {lockTime} not reached (current {current})"
  | invalidSender address => s!"Invalid sender address detected: {address}"
  | invalidRecipient address => s!"Invalid recipient address detected: {address}"

end ValidationError

/-- The confirmation of a transaction failed. -/
inductive ConfirmationError where
  | rpc (reason : String)
  | notFound (what : String)
  | timeout (after : Duration)
  | validation (cause : ValidationError)
  | cancelled
  deriving DecidableEq

namespace ConfirmationError

def code : ConfirmationError → String
  | rpc _ => "RPC_ERROR"
  | notFound _ => "TX_NOT_FOUND"
  | timeout _ => "CONFIRMATION_TIMEOUT"
  | validation cause => cause.code
  | cancelled => "CANCELLED"

def message : ConfirmationError → String
  | rpc reason => s!"RPC error: {reason}"
  | notFound what => s!"Transaction not found: {what}"
  | timeout after => s!"Timed out after {after.text} waiting for confirmations"
  | validation cause => s!"Validation failed: {cause.message}"
  | cancelled => "Confirmation cancelled"

/-- Another attempt may clear the failure up. -/
def isRetryable : ConfirmationError → Bool
  | rpc _ => true
  | notFound _ => true
  | _ => false

end ConfirmationError

/-- The queue cannot be used: the connection is gone, or the broker refused. -/
inductive QueueError where
  | reconnect
  | broker (reason : String)
  deriving DecidableEq

namespace QueueError

def message : QueueError → String
  | reconnect => "protocol connection error, reconnect"
  | broker reason => s!"Broker error: {reason}"

end QueueError

/-- The store cannot answer. -/
inductive StoreError where
  | corrupt (reason : String)
  | unknownUser (name : String)
  deriving DecidableEq

namespace StoreError

def message : StoreError → String
  | corrupt reason => s!"Corrupt record: {reason}"
  | unknownUser name => s!"Unknown user: {name}"

end StoreError

end Settlement
