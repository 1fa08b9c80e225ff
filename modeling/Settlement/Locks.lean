import Settlement.Duration

/-!
# Payment locks

While a payment is being verified its key is locked, so that no two runs verify it at once. A lock
is a lease with an end: it expires by itself, and giving it back frees the key only for the lease
that holds it. Leases are told apart by tokens that are never given out twice.
-/

namespace Settlement

/-- The key of a payment's lock. -/
def lockKey (chain user : String) (number : Int) : String :=
  s!"payment-lock:{chain}:{user}:{number}"

/-- Proof of holding a lock. -/
structure Lease where
  key : String
  token : Nat
  deriving DecidableEq, Inhabited

/-- The end of a lease that holds a key. -/
structure Hold where
  token : Nat
  expires : Instant
  deriving DecidableEq

/-- The keys that are held, and the next token to give out. -/
structure LockTable where
  held : List (String × Hold)
  next : Nat
  deriving Inhabited

namespace LockTable

def empty : LockTable := ⟨[], 0⟩

/-- The hold on a key, expired or not. -/
def hold? (locks : LockTable) (key : String) : Option Hold := locks.held.lookup key

/-- The holds on all other keys. -/
def others (locks : LockTable) (key : String) : List (String × Hold) :=
  locks.held.filter fun entry => entry.1 != key

/-- The key is held at `now` by a lease that has not ended. -/
def isHeld (locks : LockTable) (now : Instant) (key : String) : Bool :=
  match locks.hold? key with
  | some hold => hold.expires > now
  | none => false

/-- Takes the lock of a key for a time, unless it is held. The clock that ends the lease goes on for
ever; `acquire?` takes it on one that does not. -/
def acquire (locks : LockTable) (now : Instant) (key : String) (ttl : Duration) :
    Option Lease × LockTable :=
  if locks.isHeld now key then (none, locks)
  else
    let hold : Hold := ⟨locks.next, now + ttl.nanos⟩
    (some ⟨key, locks.next⟩, ⟨(key, hold) :: locks.others key, locks.next + 1⟩)

/-- Takes the lock of a key on a clock that ends. The end of a lease behind it cannot be told, and
whoever takes the lock breaks down: none. -/
def acquire? (locks : LockTable) (now : Instant) (key : String) (ttl : Duration) :
    Option (Option Lease × LockTable) :=
  if locks.isHeld now key then some (none, locks)
  else (Instant.after? now ttl).map fun _ => locks.acquire now key ttl

/-- Gives a lease back. Nothing happens when the key has another holder, or none. -/
def release (locks : LockTable) (lease : Lease) : LockTable :=
  match locks.hold? lease.key with
  | some hold =>
    if hold.token = lease.token then { locks with held := locks.others lease.key } else locks
  | none => locks

/-- Up to the end of the clock, the lock is taken as on one without an end. -/
theorem acquire?_of_after? {locks : LockTable} {now expires : Instant} {ttl : Duration}
    (ends : Instant.after? now ttl = some expires) (key : String) :
    locks.acquire? now key ttl = some (locks.acquire now key ttl) := by
  unfold acquire?
  split
  next held => rw [acquire, if_pos held]
  next => rw [ends, Option.map_some]

end LockTable

end Settlement
