import Settlement.Failure
import Settlement.Turn

/-!
# Single calls and waits under a limit

A call to a node may take so long and no longer; a whole confirmation has a deadline; a pause between
two looks at a chain ends early on a cancellation.
-/

namespace Settlement.Polling

/-- A call took longer than it may. -/
def overdue (limit : Duration) : ConfirmationError :=
  .rpc s!"call timed out after {limit.text}"

/-- What is limited: one call, a whole confirmation, or nothing but a pause. -/
inductive Kind where
  | call
  | confirmation
  | pause
  deriving DecidableEq

/-- Where a piece of work, or a pause, is. -/
inductive Stage where
  | begun
  | ended (r : Except ConfirmationError Unit)
  | woken
  | interrupted

/-- The one thing that is asked for: the work itself. -/
abbrev Reply : Unit → Type := fun _ => Except ConfirmationError Unit

/-- What is done at a stage. -/
def turn (kind : Kind) (length : Duration) :
    Stage → Turn Unit Reply Stage (Except ConfirmationError Unit)
  | .begun =>
    match kind with
    | .pause => .pause length none .woken .interrupted
    | _ => .ask () none .ended
  | .ended r => .done r
  | .woken => .done (.ok ())
  | .interrupted => .done (.error .cancelled)

/-- What the work ends with when its time is over. -/
def late (kind : Kind) (limit : Duration) : ConfirmationError :=
  match kind with
  | .call => overdue limit
  | _ => .timeout limit

/-- What is done at a stage under the limit; a pause has none. -/
def timedTurn (kind : Kind) (length limit : Duration) :
    Timed Stage → Turn Unit Reply (Timed Stage) (Except ConfirmationError Unit)
  | .running deadline stage =>
    match kind with
    | .pause => (turn kind length stage).andThen (.running deadline) .done
    | _ => Timed.turn (turn kind length) (.error (late kind limit)) (.running deadline stage)
  | .expired => .done (.error (late kind limit))

end Settlement.Polling
