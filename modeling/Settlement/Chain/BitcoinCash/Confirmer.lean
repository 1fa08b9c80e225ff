import Settlement.Chain.BitcoinCash
import Settlement.LockTime
import Settlement.Policy
import Settlement.Turn

/-!
# Confirming a Bitcoin Cash payment

The first answer decides whether the transaction pays enough into the deposit address and, where
that is asked for, whether all its inputs come from the sender and all its outputs go to the deposit
address. After that only the confirmations are looked at, and the lock time of the last answer.
-/

namespace Settlement.BitcoinCash

/-- What is asked of a node. -/
inductive Query where
  | transaction (hash : String)
  | height
  deriving DecidableEq

/-- What a node answers. -/
def Query.Reply : Query → Type
  | transaction _ => Except ConfirmationError Transaction
  | height => Except ConfirmationError Nat

/-- How payments are confirmed. `wallClock` is read when a lock time is compared with the time. -/
structure Confirmer where
  policy : Policy
  deposit : String
  strict : Bool
  wallClock : WallClock
  deriving Inhabited

/-- What a payment asks of its transaction. -/
structure Expectation where
  hash : String
  sats : Decimal
  sender : String
  deriving DecidableEq, Inhabited

/-- Where the confirmation of a payment is. -/
inductive Stage where
  | looking
  | looked (r : Except ConfirmationError Transaction)
  | waiting (paid : Decimal)
  | waited (paid : Decimal) (r : Except ConfirmationError Transaction)
  | deep (paid : Decimal) (tx : Transaction) (r : Except ConfirmationError Nat)
  | interrupted

abbrev Step (S : Type) := Turn Query Query.Reply S (Except ConfirmationError Decimal)

namespace Confirmer

variable (c : Confirmer) (expected : Expectation)

/-- The checks on the first answer, given what it pays into the deposit address. -/
def validate (tx : Transaction) (paid : Decimal) : Except ValidationError Unit := do
  if paid.lt expected.sats then
    throw (.insufficientValue expected.sats.text paid.text)
  if c.strict then
    tx.validateSender expected.sender
    tx.validateRecipient c.deposit

/-- What is done with an answer that has passed the checks. -/
def count (paid : Decimal) (tx : Transaction) : Step Stage :=
  if tx.confirmations ≥ c.policy.required then .ask .height none (.deep paid tx)
  else .pause c.policy.pollInterval none (.waiting paid) .interrupted

/-- What is done at a stage. -/
def turn (now : Instant) : Stage → Step Stage
  | .looking => .ask (.transaction expected.hash) none .looked
  | .looked (.error e) => .done (.error e)
  | .looked (.ok tx) =>
    match tx.valueTo? c.deposit with
    | none => .crash
    | some paid =>
      match c.validate expected tx paid with
      | .error e => .done (.error (.validation e))
      | .ok () => c.count paid tx
  | .waiting paid => .ask (.transaction expected.hash) none (.waited paid)
  | .waited _ (.error e) => .done (.error e)
  | .waited paid (.ok tx) => c.count paid tx
  | .deep _ _ (.error e) => .done (.error e)
  | .deep paid tx (.ok height) =>
    match LockTime.check tx.lockTime height (c.wallClock now) with
    | .ok () => .done (.ok paid)
    | .error e => .done (.error (.validation e))
  | .interrupted => .done (.error .cancelled)

/-- The confirmation under the deadline of the policy. -/
def start (now : Instant) : Timed Stage := .start now c.policy.deadline .looking

/-- What is done at a stage under the deadline. -/
def timedTurn (now : Instant) : Timed Stage → Step (Timed Stage) :=
  Timed.turn (c.turn expected now) (.error (.timeout c.policy.deadline))

end Confirmer

end Settlement.BitcoinCash
