import Settlement.Duration
import Settlement.Exchange
import Settlement.Redis.Command

/-!
# Locks that workers share

A lock is a key that the server sets only where it is not set, and that disappears by itself when
the lease is over. Giving a lease back runs a script that deletes the key only while it holds the
lease's token; a server that does not know the script is sent it once.
-/

namespace Settlement

/-- Proof of holding a lock that workers share; the token is drawn anew for each. -/
structure SharedLease where
  key : String
  token : String
  deriving DecidableEq, Inhabited

namespace SharedLease

open Redis (Command Reply Fault)

/-- A talk with the server. -/
abbrev Talk (A : Type) := Exchange Command Redis.Result (Except Fault A)

/-- The whole seconds that a lock lasts, at least one. -/
def lockSecs (ttl : Duration) : Nat := max ttl.secs 1

/-- The server's answer to setting a key says whether it was set. -/
def given : Reply → Except Fault Bool
  | .nil => .ok false
  | other => other.text?.map fun _ => true

/-- Takes the lock of a key for a time, unless somebody holds it. -/
def acquire (lease : SharedLease) (ttl : Duration) : Talk (Option SharedLease) :=
  .ask (.setIfAbsent lease.key lease.token (lockSecs ttl)) fun r =>
    .done ((r.bind given).map fun taken => if taken then some lease else none)

/-- Whether the script deleted the key. -/
def deleted (r : Redis.Result) : Except Fault Bool := (r.bind Reply.int?).map (· ≠ 0)

/-- Gives a lease back; tells whether it was still held. -/
def release (lease : SharedLease) : Talk Bool :=
  .ask (.runRelease lease.key lease.token) fun
    | .error (.refused "NOSCRIPT" _) =>
      .ask .loadRelease fun
        | .ok _ => .ask (.runRelease lease.key lease.token) fun r => .done (deleted r)
        | .error fault => .done (.error fault)
    | r => .done (deleted r)

end SharedLease

end Settlement
