import Settlement.Blockchain
import Settlement.Hex
import Settlement.Policy
import Settlement.Text.Blank
import Settlement.Text.Casing
import Settlement.Text.Integer
import Settlement.Text.Part

/-!
# Configuration

The settings of a worker, read from environment variables. The section of a chain is there when the
variable that enables it is set. Variables are read in a fixed order, the general ones first, and the
first fault is reported; the checks that look at what was read come last.
-/

namespace Settlement

/-- Environment variables with their values. -/
abbrev Variables := List (String × String)

/-- Why a configuration is refused. -/
inductive ConfigFault where
  | unknownEnvironment (text : String)
  | missing (name : String)
  | badInteger (name : String) (cause : Text.IntegerFault)
  | badFlag (name : String)
  | badAddress (name : String) (cause : HexFault)
  | redisScheme
  | noPrefetch
  | noAttempts
  | httpScheme (name : String)
  deriving DecidableEq

namespace ConfigFault

def message : ConfigFault → String
  | unknownEnvironment text => s!"Unknown environment: {text}"
  | missing name => s!"{name} required: environment variable not found"
  | badInteger name cause => s!"Invalid {name}: {cause.message}"
  | badFlag name => s!"Invalid {name}: provided string was not `true` or `false`"
  | badAddress name cause => s!"Invalid address for {name}: {cause.message}"
  | redisScheme => "REDIS_URL must be a redis:// or rediss:// URL"
  | noPrefetch => "QUEUE_PREFETCH must be at least 1"
  | noAttempts => "ETH_VERIFY_ATTEMPTS must be at least 1"
  | httpScheme name => s!"{name} must be HTTP(S) URL"

end ConfigFault

/-- How the queue is reached. A consumer that the variables do not name is named by its host
(`QueueConfig.consumerOn`). -/
structure QueueConfig where
  redisUrl : String
  prefetch : Nat
  group : String
  consumer : Option String
  reconnectDelay : Duration
  claimIdle : Duration
  deriving DecidableEq

structure EthereumConfig where
  rpcUrl : String
  rpcFallback : Option String
  paymentContract : Address
  rtcToken : Address
  policy : Policy
  verifyAttempts : Nat
  retryPause : Duration
  deriving DecidableEq

structure DashConfig where
  apiUrl : String
  token : String
  policy : Policy
  forwardPollInterval : Duration
  deriving DecidableEq

structure BitcoinCashConfig where
  rpcUrl : String
  rpcUser : Option String
  rpcPass : Option String
  depositAddress : String
  strict : Bool
  policy : Policy
  deriving DecidableEq

structure Config where
  environment : Environment
  databaseUrl : String
  rpcTimeout : Duration
  queue : QueueConfig
  ethereum : Option EthereumConfig
  dash : Option DashConfig
  bitcoinCash : Option BitcoinCashConfig
  deriving DecidableEq

namespace Variables

/-- The names of all variables that are looked at. -/
def names : List String :=
  ["ENVIRONMENT", "DATABASE_URL", "RPC_TIMEOUT_SECS", "REDIS_URL", "QUEUE_PREFETCH", "QUEUE_GROUP",
    "QUEUE_CONSUMER", "HOSTNAME", "QUEUE_RECONNECT_SECS", "QUEUE_CLAIM_IDLE_SECS", "ETH_RPC_URL",
    "ETH_RPC_FALLBACK", "PAYMENT_CONTRACT_ADDRESS", "RTC_ADDRESS", "ETH_CONFIRMATIONS",
    "ETH_POLL_SECS", "ETH_DEADLINE_SECS", "ETH_VERIFY_ATTEMPTS", "ETH_RETRY_PAUSE_SECS",
    "CHAINRIDER_TOKEN", "DASH_API_URL", "DASH_CONFIRMATIONS", "DASH_POLL_SECS",
    "DASH_DEADLINE_SECS", "DASH_FORWARD_POLL_SECS", "BCH_RPC_URL", "BCH_RPC_USER", "BCH_RPC_PASS",
    "BCH_DEPOSIT_ADDRESS", "BCH_STRICT_VALIDATION", "BCH_CONFIRMATIONS", "BCH_POLL_SECS",
    "BCH_DEADLINE_SECS"]

def get? (env : Variables) (name : String) : Option String := env.lookup name

def getD (env : Variables) (name default : String) : String := (env.get? name).getD default

/-- The value of a variable that has to be set. -/
def required (env : Variables) (name : String) : Except ConfigFault String :=
  match env.get? name with
  | some text => .ok text
  | none => .error (.missing name)

/-- The whole number below `2 ^ bits` in a variable, if it is set. -/
def natural? (env : Variables) (name : String) (bits : Nat := 64) :
    Except ConfigFault (Option Nat) :=
  match env.get? name with
  | none => .ok none
  | some text =>
    match Text.natural? bits text.toList with
    | .ok n => .ok (some n)
    | .error cause => .error (.badInteger name cause)

/-- The whole number in a variable, or `default` where it is not set. -/
def naturalD (env : Variables) (name : String) (default : Nat) (bits : Nat := 64) :
    Except ConfigFault Nat := do
  return (← env.natural? name bits).getD default

/-- The whole seconds in a variable, or `default` of them. -/
def secsD (env : Variables) (name : String) (default : Nat) : Except ConfigFault Duration := do
  return .ofSecs (← env.naturalD name default)

/-- The truth value in a variable, or `default` where it is not set. -/
def flagD (env : Variables) (name : String) (default : Bool) : Except ConfigFault Bool :=
  match env.get? name with
  | none => .ok default
  | some text =>
    if text = "true" then .ok true
    else if text = "false" then .ok false
    else .error (.badFlag name)

def address (env : Variables) (name : String) : Except ConfigFault Address := do
  match Address.ofText? (← env.required name) with
  | .ok a => return a
  | .error cause => throw (.badAddress name cause)

end Variables

namespace Environment

/-- The environment that a text names, in any letter case. -/
def ofText? (text : String) : Except ConfigFault Environment :=
  let small := Text.toLower text
  if small = "development" ∨ small = "dev" then .ok development
  else if small = "testnet" ∨ small = "test" then .ok testnet
  else if small = "production" ∨ small = "prod" then .ok production
  else .error (.unknownEnvironment text)

end Environment

namespace Policy

/-- The policy with the settings of a chain in place of its own. -/
def overridden (p : Policy) (env : Variables) (chain : String) : Except ConfigFault Policy := do
  let required ← env.natural? (chain ++ "_CONFIRMATIONS")
  let poll ← env.natural? (chain ++ "_POLL_SECS")
  let deadline ← env.natural? (chain ++ "_DEADLINE_SECS")
  return {
    required := required.getD p.required
    pollInterval := (poll.map Duration.ofSecs).getD p.pollInterval
    deadline := (deadline.map Duration.ofSecs).getD p.deadline }

end Policy

namespace QueueConfig

/-- The host's name: the first of the texts that is not blank, without the blanks around it. -/
def hostName? (texts : List (Option String)) : Option String :=
  (texts.filterMap fun text => text.map Text.trim).find? (!·.isEmpty)

/-- The consumer's name: the one that is set, else the host's. -/
def consumerName? (env : Variables) : Option String :=
  (env.get? "QUEUE_CONSUMER").or (hostName? [env.get? "HOSTNAME"])

/-- The name of the consumer on a host: where no variable names it, it is named after the text of
the file that tells the host's name, `/etc/hostname`, and where there is none after the program. -/
def consumerOn (q : QueueConfig) (hostFile : Option String) : String :=
  (q.consumer.or (hostName? [hostFile])).getD "pay-confirm"

def ofVariables (env : Variables) : Except ConfigFault QueueConfig := do
  let prefetch ← env.naturalD "QUEUE_PREFETCH" 10
  let reconnectDelay ← env.secsD "QUEUE_RECONNECT_SECS" 5
  let claimIdle ← env.secsD "QUEUE_CLAIM_IDLE_SECS" 600
  return {
    redisUrl := env.getD "REDIS_URL" "redis://localhost:6379"
    prefetch
    group := env.getD "QUEUE_GROUP" "pay-confirm"
    consumer := consumerName? env
    reconnectDelay
    claimIdle }

end QueueConfig

namespace EthereumConfig

def ofVariables (env : Variables) (environment : Environment) :
    Except ConfigFault (Option EthereumConfig) :=
  match env.get? "ETH_RPC_URL" with
  | none => .ok none
  | some rpcUrl => do
    let paymentContract ← env.address "PAYMENT_CONTRACT_ADDRESS"
    let rtcToken ← env.address "RTC_ADDRESS"
    let policy ← (Policy.ethereum environment).overridden env "ETH"
    let verifyAttempts ← env.naturalD "ETH_VERIFY_ATTEMPTS" 3 32
    let retryPause ← env.secsD "ETH_RETRY_PAUSE_SECS" 15
    return some {
      rpcUrl, rpcFallback := env.get? "ETH_RPC_FALLBACK", paymentContract, rtcToken, policy,
      verifyAttempts, retryPause }

end EthereumConfig

namespace DashConfig

/-- The address of the public service for an environment. -/
def defaultUrl (environment : Environment) : String :=
  "https://api.chainrider.io/v1/dash/" ++ (if environment.isDev then "testnet" else "main")

def ofVariables (env : Variables) (environment : Environment) :
    Except ConfigFault (Option DashConfig) :=
  match env.get? "CHAINRIDER_TOKEN" with
  | none => .ok none
  | some token => do
    let policy ← (Policy.dash environment).overridden env "DASH"
    let forwardPollInterval ← env.secsD "DASH_FORWARD_POLL_SECS" 240
    return some {
      apiUrl := env.getD "DASH_API_URL" (defaultUrl environment), token, policy,
      forwardPollInterval }

end DashConfig

namespace BitcoinCashConfig

def ofVariables (env : Variables) (environment : Environment) :
    Except ConfigFault (Option BitcoinCashConfig) :=
  match env.get? "BCH_RPC_URL" with
  | none => .ok none
  | some rpcUrl => do
    let depositAddress ← env.required "BCH_DEPOSIT_ADDRESS"
    let strict ← env.flagD "BCH_STRICT_VALIDATION" false
    let policy ← (Policy.bitcoinCash environment).overridden env "BCH"
    return some {
      rpcUrl, rpcUser := env.get? "BCH_RPC_USER", rpcPass := env.get? "BCH_RPC_PASS",
      depositAddress, strict, policy }

end BitcoinCashConfig

namespace Config

/-- The checks on what was read, in the order in which they are reported. -/
def validate (c : Config) : Except ConfigFault Unit := do
  if !Text.startsWith "redis" c.queue.redisUrl then throw .redisScheme
  if c.queue.prefetch = 0 then throw .noPrefetch
  if let some eth := c.ethereum then
    if !Text.startsWith "http" eth.rpcUrl then throw (.httpScheme "ETH_RPC_URL")
    if eth.verifyAttempts = 0 then throw .noAttempts
  if let some dash := c.dash then
    if !Text.startsWith "http" dash.apiUrl then throw (.httpScheme "DASH_API_URL")
  if let some bch := c.bitcoinCash then
    if !Text.startsWith "http" bch.rpcUrl then throw (.httpScheme "BCH_RPC_URL")

/-- The settings as they are read, before the checks on them. -/
def read (env : Variables) : Except ConfigFault Config := do
  let environment ← Environment.ofText? (env.getD "ENVIRONMENT" "development")
  let databaseUrl ← env.required "DATABASE_URL"
  let rpcTimeout ← env.secsD "RPC_TIMEOUT_SECS" 30
  let queue ← QueueConfig.ofVariables env
  let ethereum ← EthereumConfig.ofVariables env environment
  let dash ← DashConfig.ofVariables env environment
  let bitcoinCash ← BitcoinCashConfig.ofVariables env environment
  return { environment, databaseUrl, rpcTimeout, queue, ethereum, dash, bitcoinCash }

/-- The configuration that variables stand for. -/
def ofVariables (env : Variables) : Except ConfigFault Config := do
  let config ← read env
  config.validate
  return config

/-- Why payments of a chain cannot be consumed, where the chain is not configured. -/
def missingFor? (c : Config) : Blockchain → Option String
  | .ethereum =>
    if c.ethereum.isNone then some "ETH_RPC_URL required to consume Ethereum payments" else none
  | .dash =>
    if c.dash.isNone then some "CHAINRIDER_TOKEN required to consume Dash payments" else none
  | .bitcoinCash =>
    if c.bitcoinCash.isNone then some "BCH_RPC_URL required to consume Bitcoin Cash payments"
    else none

end Config

end Settlement
