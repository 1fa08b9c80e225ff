import Settlement.Chain.Dash
import Settlement.LockTime
import Settlement.Policy
import Settlement.Turn

/-!
# Confirming a Dash payment

A payment forward is watched until the deposits that it passed on cover the charge. Each deposit
counts once, by the transaction that brought it, and only after that transaction has strictly more
confirmations than required and no lock time ahead (`Settling`). The wait for a transaction is the
poll interval for each confirmation that is missing.
-/

namespace Settlement.Dash

/-- What is asked of the service. -/
inductive Query where
  | transaction (hash : String)
  | forward (id : String)
  | height
  deriving DecidableEq

/-- What the service answers; a forward by its deposits. -/
def Query.Reply : Query → Type
  | transaction _ => Except ConfirmationError Transaction
  | forward _ => Except ConfirmationError (List Deposit)
  | height => Except ConfirmationError Nat

/-- How payments are confirmed. `wallClock` is read when a lock time is compared with the time. -/
structure Confirmer where
  policy : Policy
  forwardPollInterval : Duration
  wallClock : WallClock
  deriving Inhabited

/-- Where the confirmation of a deposit's transaction is. -/
inductive Settling where
  | looking
  | looked (r : Except ConfirmationError Transaction)
  | deep (tx : Transaction) (r : Except ConfirmationError Nat)
  | interrupted

/-- What has been counted: the transactions behind the deposits, latest first, and their sum. -/
structure Tally where
  seen : List String
  total : Decimal
  deriving DecidableEq, Inhabited

/-- Where the confirmation of a payment is. While a deposit is settled, it and the ones behind it on
the same answer are kept. -/
inductive Stage where
  | looking (tally : Tally)
  | looked (tally : Tally) (r : Except ConfirmationError (List Deposit))
  | settling (tally : Tally) (deposit : Deposit) (rest : List Deposit) (s : Settling)
  | interrupted

namespace Tally

def empty : Tally := ⟨[], .zero⟩

/-- The deposits of an answer from the first one on that has not been counted. -/
def uncounted (tally : Tally) (deposits : List Deposit) : List Deposit :=
  deposits.dropWhile fun deposit => tally.seen.contains deposit.inputHash

def see (tally : Tally) (deposit : Deposit) : Tally :=
  { tally with seen := deposit.inputHash :: tally.seen }

/-- The tally with the amount of a settled deposit; none when the sum is no amount. -/
def add? (tally : Tally) (deposit : Deposit) : Option Tally :=
  (tally.total.add? (duffsToDash deposit.duffs)).map fun total => { tally with total }

/-- Deposits have been counted and cover the charge. -/
def covers (tally : Tally) (charge : Decimal) : Bool :=
  !tally.seen.isEmpty && charge.le tally.total

end Tally

namespace Confirmer

variable (c : Confirmer)

/-- Confirmations that are missing until there are more than required, at least one. The count that
is needed is a 64-bit word. -/
def missing (confirmations : Nat) : Nat :=
  max ((c.policy.required + 1) % twoPow 64 - confirmations) 1

/-- The wait for the missing confirmations, which are counted up to 32 bits. -/
def wait (confirmations : Nat) : Duration :=
  c.policy.pollInterval.scaleAtMost (min (c.missing confirmations) (twoPow 32 - 1))

/-- What is done at a stage of settling the transaction `hash`. -/
def settle (hash : String) (now : Instant) :
    Settling → Turn Query Query.Reply Settling (Except ConfirmationError Transaction)
  | .looking => .ask (.transaction hash) none .looked
  | .looked (.error e) => .done (.error e)
  | .looked (.ok tx) =>
    if tx.confirmations > c.policy.required then .ask .height none (.deep tx)
    else .pause (c.wait tx.confirmations) none .looking .interrupted
  | .deep _ (.error e) => .done (.error e)
  | .deep tx (.ok height) =>
    match LockTime.check tx.lockTime height (c.wallClock now) with
    | .ok () => .done (.ok tx)
    | .error e => .done (.error (.validation e))
  | .interrupted => .done (.error .cancelled)

abbrev Step (S : Type) := Turn Query Query.Reply S (Except ConfirmationError Decimal)

variable (forward : String) (charge : Decimal)

/-- What is done with the deposits of an answer: the first one that is new is settled; after the
last one the sum is looked at. -/
def takeDeposits (tally : Tally) (deposits : List Deposit) : Step Stage :=
  match tally.uncounted deposits with
  | deposit :: rest =>
    .ask (.transaction deposit.inputHash) none
      fun r => .settling (tally.see deposit) deposit rest (.looked r)
  | [] =>
    if tally.covers charge then .done (.ok tally.total)
    else .pause c.forwardPollInterval none (.looking tally) .interrupted

/-- What is done at a stage. -/
def turn (now : Instant) : Stage → Step Stage
  | .looking tally => .ask (.forward forward) none (.looked tally)
  | .looked _ (.error e) => .done (.error e)
  | .looked tally (.ok deposits) => c.takeDeposits charge tally deposits
  | .settling tally deposit rest s =>
    (c.settle deposit.inputHash now s).andThen (.settling tally deposit rest) fun
      | .error e => .done (.error e)
      | .ok _ =>
        match tally.add? deposit with
        | none => .crash
        | some tally => c.takeDeposits charge tally rest
  | .interrupted => .done (.error .cancelled)

/-- The confirmation under the deadline of the policy. -/
def start (now : Instant) : Timed Stage := .start now c.policy.deadline (.looking .empty)

/-- What is done at a stage under the deadline. -/
def timedTurn (now : Instant) : Timed Stage → Step (Timed Stage) :=
  Timed.turn (c.turn forward charge now) (.error (.timeout c.policy.deadline))

end Confirmer

end Settlement.Dash
