import Settlement.Failure
import Settlement.Hex
import Settlement.Payment

/-!
# Ethereum transactions

A transaction, its receipt with the logs that its execution emitted, and what a transaction has to
look like to pay for something: it succeeded, went to the payment contract, left logs, moved no
token but the platform's, moved that one when the payment is made in it, and came from the
registered sender where one is known.
-/

namespace Settlement.Ethereum

structure Transaction where
  sender : Address
  recipient : Option Address
  block : Option Nat
  deriving DecidableEq, Inhabited

structure Log where
  address : Address
  topics : List Hash
  deriving DecidableEq, Inhabited

structure Receipt where
  block : Option Nat
  status : Option Nat
  logs : List Log
  deriving DecidableEq, Inhabited

/-- The first topic of a log that reports the transfer of a token. -/
def transferTopic : Hash := 0xddf252ad1be2c89b69c2b068fc378daa952ba7f163c4a11628f55a4df523b3ef

/-- The log reports the transfer of a token. -/
def Log.isTransfer (log : Log) : Bool := log.topics.head? == some transferTopic

/-- What the record of a payment asks of its transaction. -/
structure Expectation where
  method : PaymentMethod
  sender : Option Address
  deriving DecidableEq, Inhabited

/-- The contract that payments go to, and the platform's token. -/
structure Contracts where
  payment : Address
  token : Address
  deriving DecidableEq, Inhabited

/-- The status of a receipt as messages show it. -/
def statusText : Option Nat → String
  | some status => s!"Some({status})"
  | none => "None"

/-- The destination of a transaction as messages show it. -/
def destinationText : Option Address → String
  | some address => hexText address
  | none => "contract creation"

/-- The checks on a buried transaction, in the order in which they are reported. -/
def validate (contracts : Contracts) (expected : Expectation) (tx : Transaction)
    (receipt : Receipt) : Except ValidationError Unit :=
  if receipt.status ≠ some 1 then .error (.txFailed (statusText receipt.status))
  else if tx.recipient ≠ some contracts.payment then
    .error (.wrongDestination (hexText contracts.payment) (destinationText tx.recipient))
  else if receipt.logs.isEmpty then .error .noLogs
  else
    let transfers := receipt.logs.filter Log.isTransfer
    match transfers.find? fun log => log.address ≠ contracts.token with
    | some log => .error (.unexpectedToken (hexText contracts.token) (hexText log.address))
    | none =>
      if expected.method = .rtc ∧ transfers = [] then .error .missingTokenTransfer
      else
        match expected.sender with
        | none => .ok ()
        | some sender =>
          if tx.sender = sender then .ok ()
          else .error (.wrongSender (hexText sender) (hexText tx.sender))

end Settlement.Ethereum
