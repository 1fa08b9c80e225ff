import Settlement.Chain.Dash
import Settlement.Http
import Settlement.Http.Status
import Settlement.Json.Record
import Settlement.Polling

/-!
# A service for Dash

Transactions, payment forwards and blocks are looked up by paths under the address of a service;
each request carries a token. A path that the service does not know means that the thing is not
there. The height is looked up in two steps, through the hash of the last block.
-/

namespace Settlement.Dash

open Json

/-- An address of a service, the token for it, and how long a call may take. -/
structure Service where
  url : String
  token : String
  timeout : Duration
  deriving Inhabited

/-- A deposit with the transaction that passed it on. -/
structure Relay where
  deposit : Deposit
  relayHash : String
  deriving DecidableEq, Inhabited

/-- A payment forward with the deposits it has passed on. -/
structure Forward where
  id : String
  address : String
  relays : List Relay
  deriving DecidableEq, Inhabited

def Forward.deposits (f : Forward) : List Deposit := f.relays.map (·.deposit)

def Transaction.readJson (doc : Doc) : Except Fault Transaction := do
  let record : Record :=
    ⟨"Transaction",
      [.of "txid" Doc.readString, .of "locktime" Doc.readWord64 .defaulted,
        .of "confirmations" Doc.readWord64 .defaulted]⟩
  let docs ← record.docs .text doc
  return {
    id := ← docs.required "txid" Doc.readString
    lockTime := ← docs.withDefault "locktime" Doc.readWord64 0
    confirmations := ← docs.withDefault "confirmations" Doc.readWord64 0 }

def Relay.readJson (doc : Doc) : Except Fault Relay := do
  let record : Record :=
    ⟨"Relay",
      [.of "input_transaction_hash" Doc.readString, .of "received_amount_duffs" Doc.readWord64,
        .of "transaction_hash" Doc.readString .defaulted]⟩
  let docs ← record.docs .text doc
  let hash ← docs.required "input_transaction_hash" Doc.readString
  let duffs ← docs.required "received_amount_duffs" Doc.readWord64
  return ⟨⟨hash, duffs⟩, ← docs.withDefault "transaction_hash" Doc.readString ""⟩

def Forward.readJson (doc : Doc) : Except Fault Forward := do
  let relays := Doc.readList Relay.readJson
  let record : Record :=
    ⟨"Forward",
      [.of "paymentforward_id" Doc.readString .defaulted,
        .of "payment_address" Doc.readString .defaulted, .of "processed_txs" relays .defaulted]⟩
  let docs ← record.docs .text doc
  return {
    id := ← docs.withDefault "paymentforward_id" Doc.readString ""
    address := ← docs.withDefault "payment_address" Doc.readString ""
    relays := ← docs.withDefault "processed_txs" relays [] }

def readLastHash (doc : Doc) : Except Fault String := do
  let record : Record := ⟨"Status", [.of "lastblockhash" Doc.readString]⟩
  (← record.docs .text doc).required "lastblockhash" Doc.readString

def readHeight (doc : Doc) : Except Fault Nat := do
  let record : Record := ⟨"Block", [.of "height" Doc.readWord64]⟩
  (← record.docs .text doc).required "height" Doc.readWord64

/-- What a response to a look-up of a path means. -/
def answerOf {α : Type} (path : String) (read : Doc → Except Fault α) (response : Http.Response) :
    Except ConfirmationError α :=
  if Http.isNotFound response.status then .error (.notFound path)
  else if Http.isErrorStatus response.status then .error (.rpc (Http.statusLine response.status))
  else
    match Doc.read read (glyphs response.body) with
    | .ok a => .ok a
    | .error _ => .error (.rpc "error decoding response body")

namespace Service

/-- The address of a service without the slashes at its end. -/
def base (s : Service) : String :=
  String.ofList (s.url.toList.reverse.dropWhile (· == '/')).reverse

/-- Looks a path up. -/
def look {α : Type} (s : Service) (path : String) (query : List (String × String))
    (read : Doc → Except Fault α) : Http.Talk (Except ConfirmationError α) :=
  (Http.send ⟨.get, s.base ++ path, ("token", s.token) :: query, none, none⟩).map fun
    | .ok response => answerOf path read response
    | .error .overdue => .error (Polling.overdue s.timeout)
    | .error (.broken reason) => .error (.rpc reason)

/-- The transaction of a hash. -/
def transaction (s : Service) (hash : String) : Http.Talk (Except ConfirmationError Transaction) :=
  s.look s!"/tx/{hash}" [] Transaction.readJson

/-- The payment forward of an id. -/
def forward (s : Service) (id : String) : Http.Talk (Except ConfirmationError Forward) :=
  s.look s!"/paymentforward/{id}" [] Forward.readJson

/-- The height of the last block. -/
def height (s : Service) : Http.Talk (Except ConfirmationError Nat) :=
  (s.look "/status" [("q", "getLastBlockHash")] readLastHash).andThen fun
    | .ok hash => s.look s!"/block/{hash}" [] readHeight
    | .error e => .done (.error e)

end Service

end Settlement.Dash
