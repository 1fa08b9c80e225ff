import Settlement.Chain.Ethereum
import Settlement.Policy
import Settlement.Turn

/-!
# Confirming an Ethereum transaction

The transaction is looked up until it is in a block, then the head of the chain until the receipt's
block is buried deep enough. After that receipt and transaction are read again and checked, because
only then they are settled. While the head moves on between two looks there is no wait.
-/

namespace Settlement.Ethereum

/-- What is asked of a node. -/
inductive Query where
  | transaction (hash : Hash)
  | receipt (hash : Hash)
  | head
  deriving DecidableEq

/-- What a node answers. -/
def Query.Reply : Query → Type
  | transaction _ => Except ConfirmationError (Option Transaction)
  | receipt _ => Except ConfirmationError (Option Receipt)
  | head => Except ConfirmationError Nat

/-- How transactions are confirmed. -/
structure Confirmer where
  policy : Policy
  contracts : Contracts
  deriving DecidableEq, Inhabited

/-- Where the confirmation of a transaction is. -/
inductive Stage where
  | looking
  | looked (r : Except ConfirmationError (Option Transaction))
  | placed (r : Except ConfirmationError (Option Receipt))
  | counting (block : Nat) (last : Option Nat)
  | counted (block : Nat) (last : Option Nat) (r : Except ConfirmationError Nat)
  | buried (r : Except ConfirmationError (Option Receipt))
  | settled (receipt : Receipt) (r : Except ConfirmationError (Option Transaction))
  | interrupted

abbrev Step (S : Type) := Turn Query Query.Reply S (Except ConfirmationError Receipt)

/-- The transaction is not known to the node. -/
def unknown (hash : Hash) : ConfirmationError := .notFound (hexText hash)

/-- The node has no receipt for the transaction. -/
def unreceipted (hash : Hash) : ConfirmationError := .notFound ("receipt for " ++ hexText hash)

def unplaced : ConfirmationError := .rpc "receipt has no block number"

namespace Confirmer

variable (c : Confirmer) (hash : Hash) (expected : Expectation)

/-- A wait between two looks at the chain. -/
def poll (next : Stage) : Step Stage := .pause c.policy.pollInterval none next .interrupted

def askTransaction (next : Except ConfirmationError (Option Transaction) → Stage) : Step Stage :=
  .ask (.transaction hash) none next

def askReceipt (next : Except ConfirmationError (Option Receipt) → Stage) : Step Stage :=
  .ask (.receipt hash) none next

def askHead (block : Nat) (last : Option Nat) : Step Stage :=
  .ask .head none (Stage.counted block last)

/-- What is done at a stage. -/
def turn : Stage → Step Stage
  | .looking => askTransaction hash .looked
  | .looked (.error e) => .done (.error e)
  | .looked (.ok none) => .done (.error (unknown hash))
  | .looked (.ok (some tx)) =>
    if tx.block.isSome then askReceipt hash .placed else c.poll .looking
  | .placed (.error e) => .done (.error e)
  | .placed (.ok none) => .done (.error (unreceipted hash))
  | .placed (.ok (some receipt)) =>
    match receipt.block with
    | none => .done (.error unplaced)
    | some block => askHead block none
  | .counting block last => askHead block last
  | .counted _ _ (.error e) => .done (.error e)
  | .counted block last (.ok head) =>
    if head - block ≥ c.policy.required then askReceipt hash .buried
    else if last = some head then c.poll (.counting block (some head))
    else askHead block (some head)
  | .buried (.error e) => .done (.error e)
  | .buried (.ok none) => .done (.error (unreceipted hash))
  | .buried (.ok (some receipt)) => askTransaction hash (.settled receipt)
  | .settled _ (.error e) => .done (.error e)
  | .settled _ (.ok none) => .done (.error (unknown hash))
  | .settled receipt (.ok (some tx)) =>
    match validate c.contracts expected tx receipt with
    | .ok () => .done (.ok receipt)
    | .error e => .done (.error (.validation e))
  | .interrupted => .done (.error .cancelled)

/-- The confirmation under the deadline of the policy. -/
def start (now : Instant) : Timed Stage := .start now c.policy.deadline .looking

/-- What is done at a stage under the deadline. -/
def timedTurn : Timed Stage → Step (Timed Stage) :=
  Timed.turn (c.turn hash expected) (.error (.timeout c.policy.deadline))

end Confirmer

end Settlement.Ethereum
