import Settlement.Rehearsal.World

/-!
# Reports of a rehearsal

The calls that reached a node, as a count by name and as the first twenty of them with their times,
and the calls of the locks in their order.
-/

namespace Settlement.Rehearsal

/-- A call of a node by its name, with what was asked for. -/
structure Visit where
  instant : Instant
  name : String
  argument : String
  deriving DecidableEq

/-- A call of the locks: taking one, with the time asked for and whether it was given, or giving it
back. -/
inductive LockCall where
  | acquire (key : String) (ttl : Duration) (got : Bool)
  | release (key : String)
  deriving DecidableEq

def ethereumVisit : Ethereum.Query → String × String
  | .transaction _ => ("transaction", "")
  | .receipt _ => ("receipt", "")
  | .head => ("block_number", "")

def dashVisit : Dash.Query → String × String
  | .transaction hash => ("transaction", hash)
  | .forward id => ("payment_forward", id)
  | .height => ("best_height", "")

def bitcoinCashVisit : BitcoinCash.Query → String × String
  | .transaction hash => ("transaction", hash)
  | .height => ("best_height", "")

/-- The call of a node that a worker makes, if it is one. -/
def askVisit? : Ask → Option (String × String)
  | .worker (.ethereum query) => some (ethereumVisit query)
  | .worker (.dash query) => some (dashVisit query)
  | .worker (.bitcoinCash query) => some (bitcoinCashVisit query)
  | _ => none

/-- The calls of a node in a log, in their order. -/
def visits {C : Type} {R : C → Type} (name? : C → Option (String × String))
    (log : List (Entry C R)) : List Visit :=
  log.reverse.filterMap fun entry =>
    (name? entry.call).map fun (name, argument) => ⟨entry.instant, name, argument⟩

/-- How often each name was called. -/
def countByName (visits : List Visit) : List (String × Nat) :=
  (visits.map (·.name)).eraseDups.map fun name => (name, visits.countP (·.name == name))

/-- The call of the locks in an entry; taking a lock is left out when the backend failed. -/
def lockCall? : Entry Ask Ask.Reply → Option LockCall
  | ⟨_, _, .worker (.acquire key ttl), reply⟩ =>
    match (reply : Except LockError (Option Lease)) with
    | .ok lease => some (.acquire key ttl lease.isSome)
    | .error _ => none
  | ⟨_, _, .worker (.release lease), _⟩ => some (.release lease.key)
  | _ => none

/-- The calls of the locks in a log, in their order. -/
def lockCalls (log : List (Entry Ask Ask.Reply)) : List LockCall := log.reverse.filterMap lockCall?

namespace Visit

/-- The line of a call: its time since `start` in milliseconds, its name and its argument. -/
def line (start : Instant) (v : Visit) : String :=
  let time := toString (Duration.millis ⟨v.instant - start⟩)
  if v.argument.isEmpty then s!"{time} {v.name}" else s!"{time} {v.name} {v.argument}"

end Visit

end Settlement.Rehearsal
