import Settlement.Locks

/-!
# Taking and giving back locks

Locks on a clock of their own. A lease is remembered under a name, so that a later step can give it
back, also a second time.
-/

namespace Settlement.Rehearsal

/-- Locks with the clock and the leases by their names. -/
structure LockBench where
  now : Instant
  locks : LockTable
  leases : List (String × Lease)

/-- Something that is done with the locks. -/
inductive LockStep where
  | acquire (key : String) (ttl : Duration) (name : String)
  | release (name : String)
  | advance (length : Duration)
  deriving DecidableEq

/-- What comes of a step: the key of the lease that was given, if one was; a lease that was given
back, or that there is none of the name; time that has passed; or that a lease has no end that the
clock could tell. -/
inductive LockAnswer where
  | acquired (key : Option String)
  | brokenDown
  | released
  | unknownLease
  | advanced
  deriving DecidableEq

namespace LockBench

def idle : LockBench := ⟨0, .empty, []⟩

def step (b : LockBench) : LockStep → LockAnswer × LockBench
  | .acquire key ttl name =>
    match b.locks.acquire? b.now key ttl with
    | some (some lease, locks) =>
      (.acquired (some lease.key), { b with locks, leases := (name, lease) :: b.leases })
    | some (none, locks) => (.acquired none, { b with locks })
    | none => (.brokenDown, b)
  | .release name =>
    match b.leases.lookup name with
    | some lease => (.released, { b with locks := b.locks.release lease })
    | none => (.unknownLease, b)
  | .advance length => (.advanced, { b with now := b.now + length.nanos })

end LockBench

end Settlement.Rehearsal
