import Settlement.Failure
import Settlement.Payment

/-!
# The store of payments and users

Payments are kept by user and number, users by name, and the Ethereum addresses that users
registered beside them, each in the order in which they came. A payment is confirmed at most once:
`confirm` turns the first unconfirmed payment of a transaction.
-/

namespace Settlement

structure Store where
  payments : List Payment
  users : List User
  addresses : List (String × String)
  deriving DecidableEq, Inhabited

namespace Store

def empty : Store := ⟨[], [], []⟩

/-- The list with `a` in place of its first element that fulfils `same`, or behind it. -/
def replaceOrAdd {α : Type} (same : α → Bool) (a : α) : List α → List α
  | [] => [a]
  | b :: rest => if same b then a :: rest else b :: replaceOrAdd same a rest

/-- The payment has this user and number. -/
def isPayment (user : String) (number : Int) (p : Payment) : Bool :=
  p.user == user && p.number == number

def insertPayment (s : Store) (p : Payment) : Store :=
  { s with payments := replaceOrAdd (isPayment p.user p.number) p s.payments }

def insertUser (s : Store) (u : User) (address : Option String) : Store :=
  { s with
    users := replaceOrAdd (fun other => other.name == u.name) u s.users
    addresses := match address with
      | some a => replaceOrAdd (fun other => other.1 == u.name) (u.name, a) s.addresses
      | none => s.addresses }

def findPayment (s : Store) (user : String) (number : Int) : Option Payment :=
  s.payments.find? (isPayment user number)

def findByHash (s : Store) (hash : String) : Option Payment :=
  s.payments.find? fun p => p.txHash == hash

/-- The payment belongs to the transaction and is not confirmed. -/
def isOpen (hash : String) (p : Payment) : Bool := p.txHash == hash && !p.confirmed

/-- The first element that fulfils `test`, changed by `f`. -/
def modifyFirst {α : Type} (test : α → Bool) (f : α → α) : List α → List α
  | [] => []
  | a :: rest => if test a then f a :: rest else a :: modifyFirst test f rest

/-- Confirms the payment of a transaction; false where none was unconfirmed. -/
def confirm (s : Store) (hash : String) : Bool × Store :=
  if s.payments.any (isOpen hash) then
    (true, { s with
      payments := modifyFirst (isOpen hash) (fun p => { p with confirmed := true }) s.payments })
  else (false, s)

def findUser (s : Store) (name : String) : Option User :=
  s.users.find? fun u => u.name == name

def findAddress (s : Store) (name : String) : Option String := s.addresses.lookup name

/-- Adds to a user's credits. The new balance, none when it would be no amount; the store is then as
it was. -/
def addCredits (s : Store) (name : String) (amount : Decimal) :
    Except StoreError (Option Decimal) × Store :=
  match s.findUser name with
  | none => (.error (.unknownUser name), s)
  | some user =>
    match user.credits.add? amount with
    | none => (.ok none, s)
    | some credits =>
      (.ok (some credits), { s with
        users := modifyFirst (fun u => u.name == name) (fun u => { u with credits }) s.users })

theorem confirm_eq_of_none_open {s : Store} {hash : String}
    (h : s.payments.any (isOpen hash) = false) : s.confirm hash = (false, s) := by
  simp [confirm, h]

end Store

end Settlement
