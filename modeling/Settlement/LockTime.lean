import Settlement.Failure

/-!
# Lock times

A transaction is final once its lock time is not ahead of the chain. Lock times from
`LockTime.threshold` up are seconds since 1970 and are compared with the clock on the wall, as it is
read at the check; the ones below it are block heights.
-/

namespace Settlement

/-- The seconds since 1970 that the clock on the wall shows at an instant. -/
abbrev WallClock := Instant → Nat

namespace LockTime

/-- The least lock time that is a time and not a height. -/
def threshold : Nat := 500000000

/-- What a lock time is compared with. -/
def current (lockTime height wallClock : Nat) : Nat :=
  if lockTime ≥ threshold then wallClock else height

/-- Refuses a lock time that is ahead. -/
def check (lockTime height wallClock : Nat) : Except ValidationError Unit :=
  if lockTime > current lockTime height wallClock then
    .error (.lockTimeNotReached lockTime (current lockTime height wallClock))
  else .ok ()

theorem check_eq_ok_iff {lockTime height wallClock : Nat} :
    check lockTime height wallClock = .ok () ↔ lockTime ≤ current lockTime height wallClock := by
  unfold check
  split
  next ahead => simp [Nat.not_le.2 ahead]
  next reached => simp [Nat.not_lt.1 reached]

end LockTime

end Settlement
