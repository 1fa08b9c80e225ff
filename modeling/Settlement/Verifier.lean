import Settlement.Chain.BitcoinCash.Confirmer
import Settlement.Chain.Dash.Confirmer
import Settlement.Chain.Ethereum.Confirmer
import Settlement.Email
import Settlement.Locks
import Settlement.Outcome
import Settlement.Payment
import Settlement.Request

/-!
# Verifying a payment on its chain

`Call` is everything that a worker asks of its collaborators, with the type of the reply to each.
`Verifier` is the part of the work on a request that depends on the chain. What the request says is
checked before the chain is asked. The Ethereum verifier repeats the whole confirmation while the
node may not have seen the transaction yet.
-/

namespace Settlement

/-- The lock backend cannot answer. -/
inductive LockError where
  | backend (reason : String)
  deriving DecidableEq

/-- A mail cannot be handed over. -/
inductive NotifyError where
  | queue (cause : QueueError)
  deriving DecidableEq

def NotifyError.message : NotifyError → String
  | queue cause => s!"Queue error: {cause.message}"

/-- What a worker asks of its collaborators. -/
inductive Call where
  | ethereum (query : Ethereum.Query)
  | dash (query : Dash.Query)
  | bitcoinCash (query : BitcoinCash.Query)
  | acquire (key : String) (ttl : Duration)
  | release (lease : Lease)
  | findPayment (user : String) (number : Int)
  | confirmPayment (hash : String)
  | addCredits (user : String) (amount : Decimal)
  | findAddress (user : String)
  | findUser (user : String)
  | notify (email : Email)
  deriving DecidableEq

/-- What the collaborators answer. A balance that is no amount breaks the worker down. -/
def Call.Reply : Call → Type
  | ethereum query => query.Reply
  | dash query => query.Reply
  | bitcoinCash query => query.Reply
  | acquire _ _ => Except LockError (Option Lease)
  | release _ => Except LockError Unit
  | findPayment _ _ => Except StoreError (Option Payment)
  | confirmPayment _ => Except StoreError Bool
  | addCredits _ _ => Except StoreError (Option Decimal)
  | findAddress _ => Except StoreError (Option String)
  | findUser _ => Except StoreError (Option User)
  | notify _ => Except NotifyError Unit

/-- How the payments of a chain are verified. -/
inductive Verifier where
  | ethereum (confirmer : Ethereum.Confirmer) (attempts : Nat) (retryPause : Duration)
  | dash (confirmer : Dash.Confirmer)
  | bitcoinCash (confirmer : BitcoinCash.Confirmer)
  deriving Inhabited

/-- Where the verification of an Ethereum payment is. -/
inductive EthereumStage where
  | addressed (hash : Hash) (r : Except StoreError (Option String))
  | attempting (hash : Hash) (expected : Ethereum.Expectation) (attempt : Nat)
      (s : Timed Ethereum.Stage)
  | retrying (hash : Hash) (expected : Ethereum.Expectation) (attempt : Nat)
  | interrupted

/-- Where the verification of a payment is. -/
inductive VerifierStage where
  | ethereum (s : EthereumStage)
  | dash (forward : String) (s : Timed Dash.Stage)
  | bitcoinCash (expected : BitcoinCash.Expectation) (s : Timed BitcoinCash.Stage)

abbrev Step (S A : Type) := Turn Call Call.Reply S A

/-- The result of a verification. -/
abbrev Verdict := Except Rejection Unit

namespace Verifier

/-- The chain whose payments are verified. -/
def chain : Verifier → Blockchain
  | ethereum _ _ _ => .ethereum
  | dash _ => .dash
  | bitcoinCash _ => .bitcoinCash

/-- Attempts that are made; at least one. -/
def attemptsMade (attempts : Nat) : Nat := max attempts 1

/-- The longest time that a verification takes; none when it is no duration. -/
def maxDuration? : Verifier → Option Duration
  | ethereum c attempts retryPause => do
    (← c.policy.deadline.add? retryPause).scale? (attemptsMade attempts)
  | dash c => some c.policy.deadline
  | bitcoinCash c => some c.policy.deadline

/-- What is done with the result of an attempt on Ethereum: a failure that another attempt may clear
up is followed by one after a pause, while there are attempts left. -/
def afterAttempt (attempts : Nat) (retryPause : Duration) (hash : Hash)
    (expected : Ethereum.Expectation) (attempt : Nat) :
    Except ConfirmationError Ethereum.Receipt → Step EthereumStage Verdict
  | .ok _ => .done (.ok ())
  | .error e =>
    if e.isRetryable && attempt < attemptsMade attempts then
      .pause retryPause none (.retrying hash expected (attempt + 1)) .interrupted
    else .done (.error (.verification e))

/-- The turn of an attempt on Ethereum. -/
def attemptTurn (c : Ethereum.Confirmer) (attempts : Nat) (retryPause : Duration) (hash : Hash)
    (expected : Ethereum.Expectation) (attempt : Nat) (s : Timed Ethereum.Stage) :
    Step EthereumStage Verdict :=
  (c.timedTurn hash expected s).within Call.ethereum (fun _ r => r)
    (EthereumStage.attempting hash expected attempt)
    (afterAttempt attempts retryPause hash expected attempt)

/-- What the record of the payment asks, given the address that the user registered. -/
def expectation (payment : Payment) : Option String → Except Rejection Ethereum.Expectation
  | none => .ok ⟨payment.method, none⟩
  | some text =>
    match Address.ofText? text with
    | .ok address => .ok ⟨payment.method, some address⟩
    | .error fault =>
      .error (.invalidPayment s!"registered address {text}: {fault.message}")

/-- The hash of an Ethereum payment. -/
def paymentHash (payment : Payment) : Except Rejection Hash :=
  match Hex.word? 256 (Hex.withoutMarks payment.txHash.toList) with
  | .ok hash => .ok hash
  | .error fault => .error (.invalidPayment s!"tx hash {payment.txHash}: {fault.message}")

def ethereumTurn (c : Ethereum.Confirmer) (attempts : Nat) (retryPause : Duration)
    (payment : Payment) (now : Instant) : EthereumStage → Step EthereumStage Verdict
  | .addressed _ (.error e) => .done (.error (.store e.message))
  | .addressed hash (.ok registered) =>
    match expectation payment registered with
    | .error reason => .done (.error reason)
    | .ok expected => attemptTurn c attempts retryPause hash expected 1 (c.start now)
  | .attempting hash expected attempt s =>
    attemptTurn c attempts retryPause hash expected attempt s
  | .retrying hash expected attempt =>
    attemptTurn c attempts retryPause hash expected attempt (c.start now)
  | .interrupted => .done (.error (.verification .cancelled))

/-- The verdict on a confirmed or failed payment. -/
def verdict {α : Type} : Except ConfirmationError α → Verdict
  | .ok _ => .ok ()
  | .error e => .error (.verification e)

def dashTurn (c : Dash.Confirmer) (payment : Payment) (forward : String) (now : Instant)
    (s : Timed Dash.Stage) : Step VerifierStage Verdict :=
  (c.timedTurn forward payment.charge now s).within Call.dash (fun _ r => r)
    (VerifierStage.dash forward) fun r => .done (verdict r)

def bitcoinCashTurn (c : BitcoinCash.Confirmer) (expected : BitcoinCash.Expectation)
    (now : Instant) (s : Timed BitcoinCash.Stage) : Step VerifierStage Verdict :=
  (c.timedTurn expected now s).within Call.bitcoinCash (fun _ r => r)
    (VerifierStage.bitcoinCash expected) fun r => .done (verdict r)

/-- The first turn of a verification: what the request says is checked before the chain is asked. -/
def begin (v : Verifier) (request : Request) (payment : Payment) (now : Instant) :
    Step VerifierStage Verdict :=
  match v, request with
  | ethereum _ _ _, .ethereum _ =>
    match paymentHash payment with
    | .error reason => .done (.error reason)
    | .ok hash =>
      .ask (.findAddress payment.user) none fun r => .ethereum (.addressed hash r)
  | dash c, .dash r =>
    if r.forwardId.isEmpty then .done (.error (.forged "empty payment forward id"))
    else dashTurn c payment r.forwardId now (c.start now)
  | bitcoinCash c, .bitcoinCash r =>
    if BitcoinCash.sameAddress r.recipient c.deposit then
      bitcoinCashTurn c ⟨payment.txHash, payment.charge, r.sender⟩ now (c.start now)
    else .done (.error (.forged s!"recipient {r.recipient} is not the deposit address"))
  | _, _ => .done (.error .blockchainMismatch)

/-- What is done at a stage of a verification. -/
def turn (v : Verifier) (payment : Payment) (now : Instant) :
    VerifierStage → Step VerifierStage Verdict
  | .ethereum s =>
    match v with
    | ethereum c attempts retryPause =>
      (ethereumTurn c attempts retryPause payment now s).andThen .ethereum .done
    | _ => .done (.error .blockchainMismatch)
  | .dash forward s =>
    match v with
    | dash c => dashTurn c payment forward now s
    | _ => .done (.error .blockchainMismatch)
  | .bitcoinCash expected s =>
    match v with
    | bitcoinCash c => bitcoinCashTurn c expected now s
    | _ => .done (.error .blockchainMismatch)

end Verifier

end Settlement
