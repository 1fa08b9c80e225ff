import Settlement.Decimal.Text
import Settlement.Failure
import Settlement.Text.Part

/-!
# Bitcoin Cash transactions

A transaction as a node reports it, with the addresses behind its inputs and the amounts of its
outputs in satoshis. Addresses are compared without their network and without regard to the case of
ASCII letters.
-/

namespace Settlement.BitcoinCash

structure Output where
  address : Option String
  sats : Decimal
  deriving DecidableEq, Inhabited

structure Transaction where
  hash : String
  confirmations : Nat
  lockTime : Nat
  inputs : List (Option String)
  outputs : List Output
  deriving DecidableEq, Inhabited

/-- What tells an address from others: the part behind its network, in small letters. -/
def addressKey (address : String) : List Char :=
  (Text.behindLast ':' address.toList).map Char.toLower

/-- The texts name the same address. -/
def sameAddress (a b : String) : Bool := addressKey a == addressKey b

/-- The optional address is the one that is meant. -/
def isAddress (wanted : String) : Option String → Bool
  | some address => sameAddress address wanted
  | none => false

namespace Transaction

/-- The satoshis paid to an address; none when they are too many to count. -/
def valueTo? (tx : Transaction) (address : String) : Option Decimal :=
  Decimal.sum? ((tx.outputs.filter fun out => isAddress address out.address).map (·.sats))

/-- The first address that is another than the wanted one, or not known. -/
def stranger? (wanted : String) (addresses : List (Option String)) : Option String :=
  (addresses.find? fun address => !isAddress wanted address).map (·.getD "unknown")

/-- Every input has to come from the sender. -/
def validateSender (tx : Transaction) (sender : String) : Except ValidationError Unit :=
  match stranger? sender tx.inputs with
  | some address => .error (.invalidSender address)
  | none => .ok ()

/-- Every output has to go to the recipient. -/
def validateRecipient (tx : Transaction) (recipient : String) : Except ValidationError Unit :=
  match stranger? recipient (tx.outputs.map (·.address)) with
  | some address => .error (.invalidRecipient address)
  | none => .ok ()

end Transaction

theorem sameAddress_refl (a : String) : sameAddress a a = true := by simp [sameAddress]

end Settlement.BitcoinCash
