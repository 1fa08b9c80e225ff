import Settlement.Blockchain
import Settlement.Json.Amount

/-!
# Payments and users

A payment is expected on one chain, belongs to one user and grants credits once it is confirmed. A
user has an address for mail and a balance of credits.
-/

namespace Settlement

/-- The native coin of the chain, or the platform's token. -/
inductive PaymentMethod where
  | native
  | rtc
  deriving DecidableEq, Inhabited

namespace PaymentMethod

def name : PaymentMethod → String
  | native => "Native"
  | rtc => "Rtc"

/-- The method of a column value; the text of the error otherwise. -/
def ofCode? (code : Int) : Except String PaymentMethod :=
  if code = 0 then .ok native
  else if code = 1 then .ok rtc
  else .error s!"unknown payment method: {code}"

/-- The column value of a method. -/
def code : PaymentMethod → Nat
  | native => 0
  | rtc => 1

def readJson : Json.Doc → Except Json.Fault PaymentMethod :=
  Json.Doc.readEnum ([native, rtc].map fun method => (method.name, method))

end PaymentMethod

/-- A payment that a user announced. `charge` is what has to arrive on the chain and `credits` what
the user gets for it; `txHash` names the transaction, or what is paid for on chains with
forwards. -/
structure Payment where
  number : Int
  user : String
  txHash : String
  chain : Blockchain
  method : PaymentMethod
  charge : Decimal
  credits : Decimal
  confirmed : Bool
  createdAt : Timestamp
  deriving DecidableEq, Inhabited

namespace Payment

open Json in
def record : Record where
  name := "Payment"
  fields :=
    [.of "number" Doc.readInt64, .of "user_name" Doc.readString, .of "tx_hash" Doc.readString,
      .of "blockchain" Blockchain.readJson, .of "payment_method" PaymentMethod.readJson,
      .of "charge_amount" Doc.readAmount, .of "usd_value" Doc.readAmount,
      .of "confirmed" Doc.readBoolean, .of "created_at" Doc.readTime]

open Json in
def readJson (source : Source) (doc : Doc) : Except Fault Payment := do
  let docs ← record.docs source doc
  return {
    number := ← docs.required "number" Doc.readInt64
    user := ← docs.required "user_name" Doc.readString
    txHash := ← docs.required "tx_hash" Doc.readString
    chain := ← docs.required "blockchain" Blockchain.readJson
    method := ← docs.required "payment_method" PaymentMethod.readJson
    charge := ← docs.required "charge_amount" Doc.readAmount
    credits := ← docs.required "usd_value" Doc.readAmount
    confirmed := ← docs.required "confirmed" Doc.readBoolean
    createdAt := ← docs.required "created_at" Doc.readTime }

open Json in
def json (p : Payment) : Value :=
  .object [("number", .ofInt p.number), ("user_name", .string p.user),
    ("tx_hash", .string p.txHash), ("blockchain", p.chain.json),
    ("payment_method", .string p.method.name), ("charge_amount", .ofAmount p.charge),
    ("usd_value", .ofAmount p.credits), ("confirmed", .boolean p.confirmed),
    ("created_at", .string p.createdAt.text)]

end Payment

/-- A user with an account of credits. -/
structure User where
  name : String
  email : String
  emailEnabled : Bool
  credits : Decimal
  deriving DecidableEq, Inhabited

namespace User

open Json in
def record : Record where
  name := "User"
  fields :=
    [.of "user_name" Doc.readString, .of "email_address" Doc.readString,
      .of "email_enabled" Doc.readBoolean, .of "credits" Doc.readAmount]

open Json in
def readJson (source : Source) (doc : Doc) : Except Fault User := do
  let docs ← record.docs source doc
  return {
    name := ← docs.required "user_name" Doc.readString
    email := ← docs.required "email_address" Doc.readString
    emailEnabled := ← docs.required "email_enabled" Doc.readBoolean
    credits := ← docs.required "credits" Doc.readAmount }

open Json in
def json (u : User) : Value :=
  .object [("user_name", .string u.name), ("email_address", .string u.email),
    ("email_enabled", .boolean u.emailEnabled), ("credits", .ofAmount u.credits)]

end User

end Settlement
