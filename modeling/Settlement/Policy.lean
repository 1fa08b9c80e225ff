import Settlement.Duration

/-!
# Confirmation policies

How deep a transaction has to be buried, how long to wait between looks at the chain, and when to
give up, for each chain and environment.
-/

namespace Settlement

inductive Environment where
  | development
  | testnet
  | production
  deriving DecidableEq, Inhabited

namespace Environment

def name : Environment → String
  | development => "Development"
  | testnet => "Testnet"
  | production => "Production"

/-- Every environment but production is for development. -/
def isDev : Environment → Bool
  | production => false
  | _ => true

end Environment

/-- How long and how hard a chain is watched. -/
structure Policy where
  required : Nat
  pollInterval : Duration
  deadline : Duration
  deriving DecidableEq, Inhabited

namespace Policy

def ethereum (env : Environment) : Policy where
  required := if env.isDev then 3 else 30
  pollInterval := .ofSecs 15
  deadline := .ofSecs 3600

/-- The interval is the wait for each missing confirmation. -/
def dash (env : Environment) : Policy where
  required := if env.isDev then 3 else 6
  pollInterval := .ofSecs 120
  deadline := .ofSecs 5400

def bitcoinCash (env : Environment) : Policy where
  required := if env.isDev then 1 else 3
  pollInterval := if env.isDev then .ofSecs 5 else .ofSecs 600
  deadline := .ofSecs 10800

end Policy

end Settlement
