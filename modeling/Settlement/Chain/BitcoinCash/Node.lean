import Settlement.Chain.BitcoinCash
import Settlement.Decimal.Text
import Settlement.Http
import Settlement.Http.Status
import Settlement.Json.Record
import Settlement.Polling

/-!
# A Bitcoin Cash node

Remote procedure calls to a full node: a request names a method with parameters, and the response
holds a result or an error. An error with the code for an unknown transaction means that the
transaction is not there; the status of the response does not count.

The amounts of a transaction's outputs are JSON numbers of whole coins. Their shortest decimal text
gives the satoshis, without what lies behind the last place. A number that is printed with an
exponent is no amount, and a transaction with such an output cannot be given.
-/

namespace Settlement.BitcoinCash

open Json

/-- An address of a node, with the name and the password for it, and how long a call may take. -/
structure Node where
  url : String
  credentials : Option Http.Credentials
  timeout : Duration
  deriving Inhabited

/-- An error that a node reports. -/
structure Refusal where
  code : Int
  text : String
  deriving DecidableEq, Inhabited

/-- The code of an unknown transaction. -/
def unknownTransactionCode : Int := -5

/-- Satoshis of a whole coin. -/
def satsPerCoin : Nat := 100000000

/-- Why a transaction cannot be given: its call failed, or an amount is too large to be held. -/
inductive TransactionFault where
  | failed (e : ConfirmationError)
  | tooLarge
  deriving DecidableEq

/-- The amount of an output cannot be read from its text. The text of a number has a sign, digits
and a point where they may stand, so what is in the way is the mark of an exponent. -/
def TransactionFault.badValue (text : String) : TransactionFault :=
  .failed (.rpc s!"bad output value {text}: Invalid decimal: unknown character")

/-- The satoshis of an amount in coins. -/
def satoshis (value : Number) : Except TransactionFault Decimal :=
  match Decimal.ofText? value.text with
  | none => .error (.badValue value.text)
  | some coins =>
    match coins.scale? satsPerCoin with
    | none => .error .tooLarge
    | some sats => .ok sats.trunc

/-- The addresses of a script. -/
def readScript (doc : Doc) : Except Fault (List String) := do
  let record : Record := ⟨"Script", [.of "addresses" (Doc.readList Doc.readString) .defaulted]⟩
  let docs ← record.docs .text doc
  docs.withDefault "addresses" (Doc.readList Doc.readString) []

/-- The only address of a script, none where there are several. -/
def onlyAddress : List String → Option String
  | [address] => some address
  | _ => none

/-- The address behind an input. -/
def readSource (doc : Doc) : Except Fault (Option String) := do
  let record : Record := ⟨"Source", [.of "scriptPubKey" readScript]⟩
  let docs ← record.docs .text doc
  return onlyAddress (← docs.required "scriptPubKey" readScript)

/-- The address behind an input, none where the node does not tell it. -/
def readInput (doc : Doc) : Except Fault (Option String) := do
  let reader := Doc.readOption readSource
  let record : Record := ⟨"Input", [.of "prevOut" reader .nullable]⟩
  let docs ← record.docs .text doc
  return (← docs.withDefault "prevOut" reader none).join

def readCoins : Doc → Except Fault Number
  | .number n => n
  | other => other.wrongType "a JSON number"

/-- The address and the coins of an output. -/
def readOutput (doc : Doc) : Except Fault (Option String × Number) := do
  let record : Record := ⟨"Output", [.of "value" readCoins, .of "scriptPubKey" readScript]⟩
  let docs ← record.docs .text doc
  let value ← docs.required "value" readCoins
  return (onlyAddress (← docs.required "scriptPubKey" readScript), value)

/-- A transaction as a node writes it, its amounts in coins. -/
structure RawTransaction where
  id : String
  confirmations : Nat
  lockTime : Nat
  inputs : List (Option String)
  outputs : List (Option String × Number)

namespace RawTransaction

def record : Record where
  name := "Transaction"
  fields :=
    [.of "txid" Doc.readString, .of "confirmations" Doc.readWord64 .defaulted,
      .of "locktime" Doc.readWord64 .defaulted,
      .of "vin" (Doc.readList readInput) .defaulted,
      .of "vout" (Doc.readList readOutput) .defaulted]

def readJson (doc : Doc) : Except Fault RawTransaction := do
  let docs ← record.docs .text doc
  return {
    id := ← docs.required "txid" Doc.readString
    confirmations := ← docs.withDefault "confirmations" Doc.readWord64 0
    lockTime := ← docs.withDefault "locktime" Doc.readWord64 0
    inputs := ← docs.withDefault "vin" (Doc.readList readInput) []
    outputs := ← docs.withDefault "vout" (Doc.readList readOutput) [] }

/-- An output with its amount in satoshis. -/
def output (out : Option String × Number) : Except TransactionFault Output := do
  return ⟨out.1, ← satoshis out.2⟩

/-- The transaction with its amounts in satoshis. -/
def transaction (raw : RawTransaction) : Except TransactionFault Transaction := do
  return {
    hash := raw.id
    confirmations := raw.confirmations
    lockTime := raw.lockTime
    inputs := raw.inputs
    outputs := ← raw.outputs.mapM output }

end RawTransaction

namespace Refusal

def readJson (doc : Doc) : Except Fault Refusal := do
  let record : Record := ⟨"Refusal", [.of "code" Doc.readInt64, .of "message" Doc.readString]⟩
  let docs ← record.docs .text doc
  return ⟨← docs.required "code" Doc.readInt64, ← docs.required "message" Doc.readString⟩

/-- What a refusal of a call means. -/
def meaning (method : String) (r : Refusal) : ConfirmationError :=
  if r.code = unknownTransactionCode then .notFound r.text
  else .rpc s!"{method} failed with {r.code}: {r.text}"

end Refusal

/-- The result and the error of a response, each of which may be left out. -/
def readAnswer {α : Type} (read : Doc → Except Fault α) (doc : Doc) :
    Except Fault (Option α × Option Refusal) := do
  let result := Doc.readOption read
  let error := Doc.readOption Refusal.readJson
  let record : Record := ⟨"Answer", [.of "result" result .nullable, .of "error" error .nullable]⟩
  let docs ← record.docs .text doc
  return (← docs.withDefault "result" result none, ← docs.withDefault "error" error none)

/-- What a response to a call means. An error counts, whatever the result. What the reader of the
response says of one that cannot be decoded is left out. -/
def answerOf {α : Type} (method : String) (read : Doc → Except Fault α)
    (response : Http.Response) : Except ConfirmationError α :=
  match Doc.read (readAnswer read) (glyphs response.body) with
  | .error _ =>
    let cause := ConfirmationError.rpc "error decoding response body"
    .error (.rpc s!"{method} ({Http.statusLine response.status}): {cause.message}")
  | .ok (_, some refusal) => .error (refusal.meaning method)
  | .ok (some result, none) => .ok result
  | .ok (none, none) => .error (.rpc s!"{method} returned no result")

namespace Node

/-- The request of a call. -/
def request (node : Node) (method : String) (params : List Value) : Http.Request where
  method := .post
  url := node.url
  query := []
  authorization := node.credentials.map (·.authorization)
  body := some (.object
    [("id", .string "pay-confirm"), ("jsonrpc", .string "1.0"), ("method", .string method),
      ("params", .array params)])

/-- Calls a method. -/
def call {α : Type} (node : Node) (method : String) (params : List Value)
    (read : Doc → Except Fault α) : Http.Talk (Except ConfirmationError α) :=
  (Http.send (node.request method params)).map fun
    | .ok response => answerOf method read response
    | .error .overdue => .error (Polling.overdue node.timeout)
    | .error (.broken reason) => .error (.rpc reason)

/-- The transaction of a hash. -/
def transaction (node : Node) (hash : String) : Http.Talk (Except TransactionFault Transaction) :=
  (node.call "getrawtransaction" [.string hash, .ofNat 2] RawTransaction.readJson).map fun
    | .ok raw => raw.transaction
    | .error e => .error (.failed e)

def readHeight (doc : Doc) : Except Fault Nat := do
  let record : Record := ⟨"Chain", [.of "blocks" Doc.readWord64]⟩
  (← record.docs .text doc).required "blocks" Doc.readWord64

/-- The height of the best block. -/
def height (node : Node) : Http.Talk (Except ConfirmationError Nat) :=
  node.call "getblockchaininfo" [] readHeight

end Node

end Settlement.BitcoinCash
