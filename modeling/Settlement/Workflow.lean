import Settlement.Notice
import Settlement.Verifier

/-!
# From a request to its outcome

A worker reads a request, takes the lock of its payment, looks the payment up, verifies it on its
chain, confirms it in the store, grants the credits and sends a mail. Whatever comes of it, the lock
is given back before the outcome is reported.
-/

namespace Settlement

/-- Where the work on a request is. -/
inductive Stage where
  | received
  | leased (request : Request) (r : Except LockError (Option Lease))
  | found (request : Request) (lease : Lease) (r : Except StoreError (Option Payment))
  | verifying (request : Request) (lease : Lease) (payment : Payment) (s : VerifierStage)
  | confirmed (lease : Lease) (payment : Payment) (r : Except StoreError Bool)
  | credited (lease : Lease) (payment : Payment) (r : Except StoreError (Option Decimal))
  | mailing (lease : Lease) (outcome : Outcome) (notice : Notice)
      (r : Except StoreError (Option User))
  | mailed (lease : Lease) (outcome : Outcome)
  | released (outcome : Outcome)

namespace Workflow

/-- What a lock outlives the longest verification by. -/
def lockSlack : Duration := .ofSecs 300

/-- How long a payment is locked; none when that is no duration. -/
def lockTtl? (v : Verifier) : Option Duration := do
  (← v.maxDuration?).add? lockSlack

/-- Gives the lock back and reports the outcome. -/
def finish (lease : Lease) (outcome : Outcome) : Step Stage Outcome :=
  .ask (.release lease) none fun _ => .released outcome

/-- Looks the user up for a mail before the outcome is reported. -/
def inform (lease : Lease) (payment : Payment) (outcome : Outcome) (notice : Notice) :
    Step Stage Outcome :=
  .ask (.findUser payment.user) none (.mailing lease outcome notice)

/-- What a payment that was looked up is refused for. -/
def refusal? (v : Verifier) (request : Request) (payment : Payment) : Option Rejection :=
  if payment.chain ≠ v.chain then some .blockchainMismatch
  else if payment.user ≠ request.user then some .userMismatch
  else if payment.confirmed then some .alreadyConfirmed
  else none

/-- What is done with the verdict on a payment. -/
def afterVerdict (lease : Lease) (payment : Payment) : Verdict → Step Stage Outcome
  | .ok () => .ask (.confirmPayment payment.txHash) none (.confirmed lease payment)
  | .error (.verification .cancelled) => finish lease .abandoned
  | .error (.verification e) =>
    inform lease payment (.rejected (.verification e)) (.failure payment e)
  | .error reason => finish lease (.rejected reason)

/-- The first turn: the body is read and the lock of the payment taken. -/
def receive (v : Verifier) (body : ByteArray) : Step Stage Outcome :=
  match Request.ofBody? v.chain body with
  | .error fault => .done (.rejected (.malformed (.fault fault)))
  | .ok request =>
    if request.version ≠ messageVersion then
      .done (.rejected (.unsupportedVersion request.version))
    else
      match lockTtl? v with
      | none => .crash
      | some ttl =>
        .ask (.acquire (lockKey v.chain.name request.user request.number) ttl) none
          (.leased request)

/-- What is done at a stage of the work on a message. -/
def turn (v : Verifier) (body : ByteArray) (now : Instant) : Stage → Step Stage Outcome
  | .received => receive v body
  | .leased _ (.error _) => .done .abandoned
  | .leased _ (.ok none) => .done .abandoned
  | .leased request (.ok (some lease)) =>
    .ask (.findPayment request.user request.number) none (.found request lease)
  | .found _ lease (.error e) => finish lease (.rejected (.store e.message))
  | .found _ lease (.ok none) => finish lease (.rejected .paymentNotFound)
  | .found request lease (.ok (some payment)) =>
    match refusal? v request payment with
    | some reason => finish lease (.rejected reason)
    | none =>
      (v.begin request payment now).andThen (.verifying request lease payment)
        (afterVerdict lease payment)
  | .verifying request lease payment s =>
    (v.turn payment now s).andThen (.verifying request lease payment) (afterVerdict lease payment)
  | .confirmed lease _ (.error e) => finish lease (.rejected (.store e.message))
  | .confirmed lease _ (.ok false) => finish lease (.rejected .alreadyConfirmed)
  | .confirmed lease payment (.ok true) =>
    .ask (.addCredits payment.user payment.credits) none (.credited lease payment)
  | .credited lease _ (.error e) => finish lease (.rejected (.store e.message))
  | .credited _ _ (.ok none) => .crash
  | .credited lease payment (.ok (some _)) =>
    inform lease payment (.confirmed payment.credits) (.success payment)
  | .mailing lease outcome notice (.ok (some user)) =>
    if user.emailEnabled then
      .ask (.notify (.toUser user notice.subject notice.content)) none
        fun _ => .mailed lease outcome
    else finish lease outcome
  | .mailing lease outcome _ _ => finish lease outcome
  | .mailed lease outcome => finish lease outcome
  | .released outcome => .done outcome

end Workflow

end Settlement
