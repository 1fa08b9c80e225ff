import Settlement.Chain.Ethereum
import Settlement.Http
import Settlement.Json.Record
import Settlement.Polling
import Settlement.Url

/-!
# An Ethereum node

Remote procedure calls to a node and to a second one that is asked when the first fails. Requests
are numbered for each server. A response names the version of the protocol and a number, and holds
either a result or an error and nothing else; the status of the response does not count.

Numbers, hashes and bytes are texts of hexadecimal digits, with or without `0x`.
-/

namespace Settlement.Ethereum

open Json

/-- A server and the number of the next request to it. -/
structure Server where
  url : String
  next : Nat
  deriving DecidableEq, Inhabited

/-- The servers of a node, and how long a call may take. -/
structure Node where
  primary : Server
  fallback : Option Server
  timeout : Duration
  deriving DecidableEq, Inhabited

/-- Why a node cannot be used. -/
inductive ConnectFault where
  | invalidUrl
  | failed (e : ConfirmationError)
  deriving DecidableEq

/-- The value of hexadecimal digits. -/
def digitsValue? (cs : List Char) : Option Nat :=
  cs.foldlM (fun n c => (Hex.digit? c).map (n * 16 + ·)) 0

/-- A number whose count of digits is accepted by `fits`. -/
def readDigits (expected : String) (fits : Nat → Bool) : Doc → Except Fault Nat
  | .string s => do
    let s ← s
    let cs := Hex.withoutMark s.toList
    match (digitsValue? cs).filter fun _ => fits cs.length with
    | some n => return n
    | none => throw (.mismatch (.wrongValue (.string s) expected))
  | other => other.wrongType expected

/-- A number of at most `bits` bits. -/
def readQuantity (bits : Nat) : Doc → Except Fault Nat :=
  readDigits "a number" fun count => 0 < count && count ≤ bits / 4

/-- A word of exactly `bits` bits. -/
def readWord (bits : Nat) (doc : Doc) : Except Fault (BitVec bits) :=
  (readDigits "a word" (· == bits / 4) doc).map (BitVec.ofNat bits)

/-- Bytes, which are read over. -/
def readData (doc : Doc) : Except Fault Unit :=
  (readDigits "bytes" (· % 2 == 0) doc).map fun _ => ()

def readAddress : Doc → Except Fault Address := readWord 160

def readHash : Doc → Except Fault Hash := readWord 256

/-- A field that may be missing or null. -/
def optional {α : Type} (name : String) (reader : Doc → Except Fault α) : Field :=
  .of name (Doc.readOption reader) .nullable

/-- The value of a field that may be missing or null. -/
def optionalIn {α : Type} (docs : FieldDocs) (name : String) (reader : Doc → Except Fault α) :
    Except Fault (Option α) :=
  docs.withDefault name (Doc.readOption reader) none

/-- The fields of an object; an array is none. -/
def docsOf (record : Record) (doc : Doc) : Except Fault FieldDocs :=
  match doc with
  | .array _ => doc.wrongType s!"struct {record.name}"
  | doc => record.docs .text doc

def transactionRecord : Record where
  name := "Transaction"
  fields :=
    [.of "hash" readHash, .of "nonce" (readQuantity 256), optional "blockHash" readHash,
      optional "blockNumber" (readQuantity 64), optional "transactionIndex" (readQuantity 64),
      .of "from" readAddress .defaulted, optional "to" readAddress, .of "value" (readQuantity 256),
      optional "gasPrice" (readQuantity 256), .of "gas" (readQuantity 256), .of "input" readData,
      .of "v" (readQuantity 64), .of "r" (readQuantity 256), .of "s" (readQuantity 256),
      optional "type" (readQuantity 64), optional "maxPriorityFeePerGas" (readQuantity 256),
      optional "maxFeePerGas" (readQuantity 256), optional "chainId" (readQuantity 256)]

/-- A transaction with its hash. -/
def readTransaction (doc : Doc) : Except Fault (Hash × Transaction) := do
  let docs ← docsOf transactionRecord doc
  let hash ← docs.required "hash" readHash
  return (hash, {
    sender := ← docs.withDefault "from" readAddress 0
    recipient := ← optionalIn docs "to" readAddress
    block := ← optionalIn docs "blockNumber" (readQuantity 64) })

def logRecord : Record where
  name := "Log"
  fields :=
    [.of "address" readAddress, .of "topics" (Doc.readList readHash), .of "data" readData,
      optional "blockHash" readHash, optional "blockNumber" (readQuantity 64),
      optional "transactionHash" readHash, optional "transactionIndex" (readQuantity 64),
      optional "logIndex" (readQuantity 256), optional "transactionLogIndex" (readQuantity 256),
      optional "logType" Doc.readString, optional "removed" Doc.readBoolean]

def readLog (doc : Doc) : Except Fault Log := do
  let docs ← logRecord.docs .text doc
  return ⟨← docs.required "address" readAddress, ← docs.required "topics" (Doc.readList readHash)⟩

def receiptRecord : Record where
  name := "TransactionReceipt"
  fields :=
    [.of "transactionHash" readHash, .of "transactionIndex" (readQuantity 64),
      optional "blockHash" readHash, optional "blockNumber" (readQuantity 64),
      .of "from" readAddress, optional "to" readAddress,
      .of "cumulativeGasUsed" (readQuantity 256), optional "gasUsed" (readQuantity 256),
      optional "contractAddress" readAddress, .of "logs" (Doc.readList readLog),
      optional "status" (readQuantity 64), optional "root" readHash,
      .of "logsBloom" (readWord 2048), optional "type" (readQuantity 64),
      optional "effectiveGasPrice" (readQuantity 256)]

/-- A receipt with the hash of its transaction. -/
def readReceipt (doc : Doc) : Except Fault (Hash × Receipt) := do
  let docs ← docsOf receiptRecord doc
  let hash ← docs.required "transactionHash" readHash
  return (hash, {
    block := ← optionalIn docs "blockNumber" (readQuantity 64)
    status := ← optionalIn docs "status" (readQuantity 64)
    logs := ← docs.required "logs" (Doc.readList readLog) })

/-- A protocol version other than the known one is refused. -/
def readVersion : Doc → Except Fault Unit
  | .string s => do if (← s) = "2.0" then return () else throw .malformed
  | other => other.wrongType "a string"

/-- The error of a response. -/
def readError (doc : Doc) : Except Fault String := do
  let record : Record := ⟨"Error", [.of "code" Doc.readInt64, .of "message" Doc.readString]⟩
  let docs ← record.docs .text doc
  let code ← docs.required "code" Doc.readInt64
  let message ← docs.required "message" Doc.readString
  return s!"(code: {code}, message: {message})"

/-- Every name in an object is one of the known ones. -/
def onlyNames (known : List String) : Fields → Except Fault Unit
  | .cons name _ rest => do
    if known.contains (← name) then onlyNames known rest else throw .malformed
  | _ => .ok ()

/-- The result of a response, or its error. -/
def readResponse {α : Type} (read : Doc → Except Fault α) (doc : Doc) :
    Except Fault (Except String α) := do
  let record : Record :=
    ⟨"Response", [.of "jsonrpc" readVersion, .of "id" Doc.readWord64, .of "result" read .nullable,
      .of "error" readError .nullable]⟩
  let docs ← docsOf record doc
  match doc with
  | .object fields => onlyNames ["jsonrpc", "id", "result", "error"] fields
  | _ => throw .malformed
  match docs.lookup "result", docs.lookup "error" with
  | some result, none => return .ok (← read result)
  | none, some error => return .error (← readError error)
  | _, _ => throw .malformed

/-- What a response to a call means. -/
def answerOf {α : Type} (read : Doc → Except Fault α) (response : Http.Response) :
    Except ConfirmationError α :=
  match Doc.read (readResponse read) (glyphs response.body) with
  | .ok (.ok a) => .ok a
  | .ok (.error reason) => .error (.rpc reason)
  | .error _ => .error (.rpc "no response to a call")

namespace Server

/-- The request of a call; a call without parameters does not name them. -/
def request (s : Server) (method : String) (params : List Value) : Http.Request where
  method := .post
  url := s.url
  query := []
  authorization := none
  body :=
    let parameters := if params.isEmpty then [] else [("params", Value.array params)]
    some (.object
      ([("id", .ofNat s.next), ("jsonrpc", .string "2.0"), ("method", .string method)] ++
        parameters))

/-- Calls a method; the server with its next number. -/
def call {α : Type} (s : Server) (timeout : Duration) (method : String) (params : List Value)
    (read : Doc → Except Fault α) : Http.Talk (Except ConfirmationError α × Server) :=
  (Http.send (s.request method params)).map fun result =>
    let answer := match result with
      | .ok response => answerOf read response
      | .error .overdue => .error (Polling.overdue timeout)
      | .error (.broken reason) => .error (.rpc reason)
    (answer, { s with next := s.next + 1 })

end Server

namespace Node

/-- Calls a method of the first server, and of the second one when that fails. -/
def call {α : Type} (node : Node) (method : String) (params : List Value)
    (read : Doc → Except Fault α) : Http.Talk (Except ConfirmationError α × Node) :=
  (node.primary.call node.timeout method params read).andThen fun
    | (.ok a, primary) => .done (.ok a, { node with primary })
    | (.error e, primary) =>
      match node.fallback with
      | none => .done (.error e, { node with primary })
      | some server =>
        (server.call node.timeout method params read).map fun (answer, server) =>
          (answer, { node with primary, fallback := some server })

/-- The number of the latest block. -/
def head (node : Node) : Http.Talk (Except ConfirmationError Nat × Node) :=
  node.call "eth_blockNumber" [] (readQuantity 64)

/-- The transaction of a hash with the hash that the node gives, none where it is unknown. -/
def transaction (node : Node) (hash : Hash) :
    Http.Talk (Except ConfirmationError (Option (Hash × Transaction)) × Node) :=
  node.call "eth_getTransactionByHash" [.string (hexText hash)] (Doc.readOption readTransaction)

/-- The receipt of a transaction with the hash that the node gives, none where it is unknown. -/
def receipt (node : Node) (hash : Hash) :
    Http.Talk (Except ConfirmationError (Option (Hash × Receipt)) × Node) :=
  node.call "eth_getTransactionReceipt" [.string (hexText hash)] (Doc.readOption readReceipt)

/-- A text is the address of a server. -/
def isServer (url : String) : Bool := (Url.ofText? url).isSome

/-- Connects to a node: both addresses are looked at, then the first server is asked for the latest
block. -/
def connect (primary : String) (fallback : Option String) (timeout : Duration) :
    Http.Talk (Except ConnectFault Node) :=
  if !isServer primary || fallback.any (!isServer ·) then .done (.error .invalidUrl)
  else
    let server : Server := ⟨primary, 1⟩
    (server.call timeout "eth_blockNumber" [] (readQuantity 64)).map fun
      | (.ok _, server) => .ok ⟨server, fallback.map (⟨·, 1⟩), timeout⟩
      | (.error e, _) => .error (.failed e)

end Node

end Settlement.Ethereum
