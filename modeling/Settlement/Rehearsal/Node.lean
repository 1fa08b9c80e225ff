import Settlement.Chain.BitcoinCash.Confirmer
import Settlement.Chain.Dash.Confirmer
import Settlement.Chain.Ethereum.Confirmer
import Settlement.Schedule

/-!
# A node that follows a script

The answers of a node are given as lists: a call takes the first item, the last item stays and
answers all further calls. An item is a value or a failure, and may come after a while.
-/

namespace Settlement.Rehearsal

/-- An answer and how long it takes. -/
structure Item (α : Type) where
  delay : Duration
  outcome : Except ConfirmationError α

/-- The answers to one kind of call, none where the script does not speak of it. -/
abbrev Script (α : Type) := Option (List (Item α))

namespace Script

variable {α : Type}

/-- The next answer and the script after it; `argument` is what was asked for. -/
def next (argument : String) : Script α → Item α × Script α
  | none => (⟨⟨0⟩, .error (.notFound argument)⟩, none)
  | some [] => (⟨⟨0⟩, .error (.rpc "nothing scripted")⟩, some [])
  | some [item] => (item, some [item])
  | some (item :: rest) => (item, some rest)

theorem next_singleton (argument : String) (item : Item α) :
    next argument (some [item]) = (item, some [item]) := rfl

end Script

/-- The answers of the nodes of all chains. Dash transactions are scripted one by one. -/
structure Node where
  ethereumTransactions : Script (Option Ethereum.Transaction)
  receipts : Script (Option Ethereum.Receipt)
  forwards : Script (List Dash.Deposit)
  dashTransactions : List (String × List (Item Dash.Transaction))
  bitcoinCashTransactions : Script BitcoinCash.Transaction
  heights : Script Nat

namespace Node

def empty : Node := ⟨none, none, none, [], none, none⟩

/-- The answer of an item, with the node after it. -/
def answer {α : Type} (item : Item α) (node : Node) : Answer Node (Except ConfirmationError α) :=
  ⟨item.outcome, item.delay, node⟩

def height (node : Node) : Answer Node (Except ConfirmationError Nat) :=
  let (item, heights) := node.heights.next ""
  answer item { node with heights }

def ethereum (node : Node) : (query : Ethereum.Query) → Answer Node query.Reply
  | .transaction _ =>
    let (item, ethereumTransactions) := node.ethereumTransactions.next ""
    answer item { node with ethereumTransactions }
  | .receipt _ =>
    let (item, receipts) := node.receipts.next ""
    answer item { node with receipts }
  | .head => node.height

def dash (node : Node) : (query : Dash.Query) → Answer Node query.Reply
  | .transaction hash =>
    let (item, script) := Script.next hash (node.dashTransactions.lookup hash)
    let others := node.dashTransactions.filter fun entry => entry.1 != hash
    answer item { node with
      dashTransactions := match script with
        | some items => (hash, items) :: others
        | none => others }
  | .forward id =>
    let (item, forwards) := node.forwards.next id
    answer item { node with forwards }
  | .height => node.height

def bitcoinCash (node : Node) : (query : BitcoinCash.Query) → Answer Node query.Reply
  | .transaction hash =>
    let (item, bitcoinCashTransactions) := node.bitcoinCashTransactions.next hash
    answer item { node with bitcoinCashTransactions }
  | .height => node.height

end Node

/-- One activity on its own, cancelled at an instant if one is given, run to its end. -/
def runAlone {C : Type} {R : C → Type} {W S A : Type} (m : Machine C R W S A) (world : W)
    (start : S) (cancelAt : Option Instant) : System C R W S A :=
  System.run m enough ⟨0, world, [.begin start cancelAt], 0, []⟩

/-- The confirmation of an Ethereum transaction by a node that follows a script. -/
def ethereumMachine (c : Ethereum.Confirmer) (hash : Hash) (expected : Ethereum.Expectation) :
    Machine Ethereum.Query Ethereum.Query.Reply Node (Timed Ethereum.Stage)
      (Except ConfirmationError Ethereum.Receipt) where
  turn := fun _ => c.timedTurn hash expected
  answer := fun _ query node => node.ethereum query

/-- The confirmation of a Dash payment by a service that follows a script. -/
def dashMachine (c : Dash.Confirmer) (forward : String) (charge : Decimal) :
    Machine Dash.Query Dash.Query.Reply Node (Timed Dash.Stage)
      (Except ConfirmationError Decimal) where
  turn := c.timedTurn forward charge
  answer := fun _ query node => node.dash query

/-- The confirmation of one Dash transaction, without a deadline. -/
def settlingMachine (c : Dash.Confirmer) (hash : String) :
    Machine Dash.Query Dash.Query.Reply Node Dash.Settling
      (Except ConfirmationError Dash.Transaction) where
  turn := c.settle hash
  answer := fun _ query node => node.dash query

/-- The confirmation of a Bitcoin Cash payment by a node that follows a script. -/
def bitcoinCashMachine (c : BitcoinCash.Confirmer) (expected : BitcoinCash.Expectation) :
    Machine BitcoinCash.Query BitcoinCash.Query.Reply Node (Timed BitcoinCash.Stage)
      (Except ConfirmationError Decimal) where
  turn := c.timedTurn expected
  answer := fun _ query node => node.bitcoinCash query

end Settlement.Rehearsal
