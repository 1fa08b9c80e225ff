import Settlement.Decimal.Text
import Settlement.Failure

/-!
# Dash transactions and payment forwards

A payment forward passes deposits on. The amounts are counted in duffs, a hundred million of which
make one DASH.
-/

namespace Settlement.Dash

structure Transaction where
  id : String
  lockTime : Nat
  confirmations : Nat
  deriving DecidableEq, Inhabited

/-- A deposit that a payment forward has passed on, named by the transaction that brought it. -/
structure Deposit where
  inputHash : String
  duffs : Nat
  deriving DecidableEq, Inhabited

/-- An amount of DASH in duffs. -/
def duffsToDash (duffs : Nat) : Decimal := ⟨duffs, 8⟩

end Settlement.Dash
