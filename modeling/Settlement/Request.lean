import Settlement.Blockchain

/-!
# Confirmation requests

A request asks to confirm one payment of a user on one chain. Each chain has its own kind of
message; `Request` is any of them. A message without version has the current one.
-/

namespace Settlement

/-- The version of the messages that are understood. -/
def messageVersion : Nat := 1

structure EthereumRequest where
  version : Nat
  user : String
  number : Int
  deriving DecidableEq, Inhabited

structure DashRequest where
  version : Nat
  user : String
  forwardId : String
  number : Int
  deriving DecidableEq, Inhabited

structure BitcoinCashRequest where
  version : Nat
  user : String
  sender : String
  recipient : String
  number : Int
  deriving DecidableEq, Inhabited

/-- A request of any chain. -/
inductive Request where
  | ethereum (r : EthereumRequest)
  | dash (r : DashRequest)
  | bitcoinCash (r : BitcoinCashRequest)
  deriving DecidableEq, Inhabited

namespace Request

open Json

def versionField : Field := .of "version" Doc.readWord32 .defaulted

def ethereumRecord : Record where
  name := "EthPaymentConfirmation"
  fields := [versionField, .of "user_name" Doc.readString, .of "payment_number" Doc.readInt64]

def dashRecord : Record where
  name := "DashPaymentConfirmation"
  fields :=
    [versionField, .of "user_name" Doc.readString, .of "payment_forward_id" Doc.readString,
      .of "payment_number" Doc.readInt64]

def bitcoinCashRecord : Record where
  name := "BchPaymentConfirmation"
  fields :=
    [versionField, .of "user_name" Doc.readString, .of "sender_address" Doc.readString,
      .of "recipient_address" Doc.readString, .of "payment_number" Doc.readInt64]

def readEthereum (source : Source) (doc : Doc) : Except Fault EthereumRequest := do
  let docs ← ethereumRecord.docs source doc
  return {
    version := ← docs.withDefault "version" Doc.readWord32 messageVersion
    user := ← docs.required "user_name" Doc.readString
    number := ← docs.required "payment_number" Doc.readInt64 }

def readDash (source : Source) (doc : Doc) : Except Fault DashRequest := do
  let docs ← dashRecord.docs source doc
  return {
    version := ← docs.withDefault "version" Doc.readWord32 messageVersion
    user := ← docs.required "user_name" Doc.readString
    forwardId := ← docs.required "payment_forward_id" Doc.readString
    number := ← docs.required "payment_number" Doc.readInt64 }

def readBitcoinCash (source : Source) (doc : Doc) : Except Fault BitcoinCashRequest := do
  let docs ← bitcoinCashRecord.docs source doc
  return {
    version := ← docs.withDefault "version" Doc.readWord32 messageVersion
    user := ← docs.required "user_name" Doc.readString
    sender := ← docs.required "sender_address" Doc.readString
    recipient := ← docs.required "recipient_address" Doc.readString
    number := ← docs.required "payment_number" Doc.readInt64 }

/-- Reads the message of a chain. -/
def readJson (chain : Blockchain) (source : Source) (doc : Doc) : Except Fault Request :=
  match chain with
  | .ethereum => (readEthereum source doc).map .ethereum
  | .dash => (readDash source doc).map .dash
  | .bitcoinCash => (readBitcoinCash source doc).map .bitcoinCash

/-- The request in the bytes of a message. -/
def ofBody? (chain : Blockchain) (body : ByteArray) : Except Fault Request :=
  Doc.read (readJson chain .text) (glyphs body)

def json : Request → Value
  | ethereum r =>
    .object [("version", .ofNat r.version), ("user_name", .string r.user),
      ("payment_number", .ofInt r.number)]
  | dash r =>
    .object [("version", .ofNat r.version), ("user_name", .string r.user),
      ("payment_forward_id", .string r.forwardId), ("payment_number", .ofInt r.number)]
  | bitcoinCash r =>
    .object [("version", .ofNat r.version), ("user_name", .string r.user),
      ("sender_address", .string r.sender), ("recipient_address", .string r.recipient),
      ("payment_number", .ofInt r.number)]

/-- The chain that a request belongs to. -/
def chain : Request → Blockchain
  | ethereum _ => .ethereum
  | dash _ => .dash
  | bitcoinCash _ => .bitcoinCash

def version : Request → Nat
  | ethereum r => r.version
  | dash r => r.version
  | bitcoinCash r => r.version

def user : Request → String
  | ethereum r => r.user
  | dash r => r.user
  | bitcoinCash r => r.user

/-- The number of the payment to confirm. -/
def number : Request → Int
  | ethereum r => r.number
  | dash r => r.number
  | bitcoinCash r => r.number

end Request

end Settlement
