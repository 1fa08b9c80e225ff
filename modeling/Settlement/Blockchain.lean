import Settlement.Json.Record
import Settlement.Text.Casing

/-!
# Blockchains

The three chains that payments come in on: their names in messages and records, the names that users
see, and the spellings under which they are accepted.
-/

namespace Settlement

inductive Blockchain where
  | ethereum
  | dash
  | bitcoinCash
  deriving DecidableEq, Inhabited

namespace Blockchain

/-- The name in messages and records. -/
def name : Blockchain → String
  | ethereum => "ethereum"
  | dash => "dash"
  | bitcoinCash => "bitcoincash"

/-- The name that users see. -/
def displayName : Blockchain → String
  | ethereum => "Ethereum"
  | dash => "DASH"
  | bitcoinCash => "Bitcoin Cash"

def all : List Blockchain := [ethereum, dash, bitcoinCash]

/-- The chain of a name in any letter case; the text of the error otherwise. -/
def ofText? (s : String) : Except String Blockchain :=
  let small := Text.toLower s
  if small = "ethereum" ∨ small = "eth" then .ok ethereum
  else if small = "dash" then .ok dash
  else if small = "bitcoincash" ∨ small = "bch" then .ok bitcoinCash
  else .error s!"unknown blockchain: {small}"

def readJson : Json.Doc → Except Json.Fault Blockchain :=
  Json.Doc.readEnum (all.map fun chain => (chain.name, chain))

def json (chain : Blockchain) : Json.Value := .string chain.name

end Blockchain

end Settlement
