import Settlement.Proofs.Shift
import Settlement.Proofs.Verifier.Span

/-!
# A confirmation and the clock on the wall

A confirmation reads the clock for one thing: a lock time that is a time is compared with it, and at
each stage it is known which (`Stage.lockTime?`). So at two instants of which the clock says the
same (`LockTime.SameAnswer`), that this time has been reached or that it has not, the confirmation
does the same (`alike_turn`). But a refusal names what the clock shows, so the results are the same
only up to that (`UpToClock`), and simply the same where it shows the same (`upToClock_eq_iff`).
-/

namespace Settlement

/-- The results are the same, or refuse one lock time, with readings of the clock that agree. -/
inductive UpToClock (agree : Nat → Nat → Prop) {A : Type} (refuse : ValidationError → A) :
    A → A → Prop
  | same (a : A) : UpToClock agree refuse a a
  | ahead {lockTime current current' : Nat} (time : LockTime.threshold ≤ lockTime)
      (readings : agree current current') :
      UpToClock agree refuse (refuse (.lockTimeNotReached lockTime current))
        (refuse (.lockTimeNotReached lockTime current'))

/-- Where equal readings are asked for, the results are equal. -/
theorem upToClock_eq_iff {A : Type} {refuse : ValidationError → A} {result result' : A} :
    UpToClock Eq refuse result result' ↔ result = result' := by
  constructor
  · rintro (_ | ⟨-, rfl⟩)
    · rfl
    · rfl
  · rintro rfl
    exact .same result

variable {agree : Nat → Nat → Prop}

namespace LockTime

/-- The clock says the same of a lock time at both readings: it has been reached, or it is ahead and
the readings agree. -/
def SameAnswer (agree : Nat → Nat → Prop) (lockTime wallClock wallClock' : Nat) : Prop :=
  (lockTime ≤ wallClock ↔ lockTime ≤ wallClock') ∧
    (wallClock < lockTime → agree wallClock wallClock')

instance [DecidableRel agree] (lockTime wallClock wallClock' : Nat) :
    Decidable (SameAnswer agree lockTime wallClock wallClock') :=
  inferInstanceAs (Decidable (_ ∧ _))

/-- The lock time, if it is compared with the clock. -/
def time? (lockTime : Nat) : Option Nat := if lockTime ≥ threshold then some lockTime else none

variable {lockTime wallClock wallClock' : Nat}

theorem current_of_time (height : Nat) (time : threshold ≤ lockTime) :
    current lockTime height wallClock = wallClock := if_pos time

theorem check_upToClock (height : Nat)
    (steady : ∀ time ∈ time? lockTime, SameAnswer agree time wallClock wallClock') :
    UpToClock agree .error (check lockTime height wallClock)
      (check lockTime height wallClock') := by
  by_cases time : threshold ≤ lockTime
  · obtain ⟨reached, readings⟩ := steady lockTime (if_pos time)
    rw [check, check, current_of_time height time, current_of_time height time]
    by_cases ahead : lockTime > wallClock
    · have ahead' : lockTime > wallClock' := Nat.lt_of_not_le (mt reached.2 (Nat.not_le.2 ahead))
      rw [if_pos ahead, if_pos ahead']
      exact .ahead time (readings ahead)
    · have passed : ¬lockTime > wallClock' := Nat.not_lt.2 (reached.1 (Nat.le_of_not_lt ahead))
      rw [if_neg ahead, if_neg passed]
      exact .same _
  · have height_only : ∀ clock, current lockTime height clock = height := fun clock => if_neg time
    rw [check, check, height_only, height_only]
    exact .same _

/-- A confirmation that comes to an end with the check of a lock time does so alike. -/
theorem alike_of_check {C S A : Type} {R : C → Type} (a b : Instant) (value : A)
    (r r' : Except ValidationError Unit) :
    UpToClock agree .error r r' →
      Turn.Alike a b Eq (UpToClock agree fun e => .error (.validation e))
        (match r with
          | .ok () => .done (.ok value)
          | .error e => .done (.error (.validation e)) : Turn C R S (Except ConfirmationError A))
        (match r' with
          | .ok () => .done (.ok value)
          | .error e => .done (.error (.validation e))) := by
  rintro (r | ⟨time, readings⟩)
  · cases r <;> exact .done (.same _)
  · exact .done (.ahead time readings)

end LockTime

/-! ## Dash -/

namespace Dash

/-- The lock time that is about to be compared with the clock. -/
def Settling.lockTime? : Settling → Option Nat
  | deep tx (.ok _) => LockTime.time? tx.lockTime
  | _ => none

def Stage.lockTime? : Stage → Option Nat
  | settling _ _ _ s => s.lockTime?
  | _ => none

namespace Confirmer

variable (c : Confirmer) (a b : Instant) {now now' : Instant}

theorem alike_settle (hash : String) {s : Settling}
    (steady : ∀ time ∈ s.lockTime?,
      LockTime.SameAnswer agree time (c.wallClock now) (c.wallClock now')) :
    (c.settle hash now s).Alike a b Eq (UpToClock agree fun e => .error (.validation e))
      (c.settle hash now' s) := by
  cases s with
  | looking => exact (c.settle_uncut hash now _).alike a b UpToClock.same
  | looked r =>
      cases r with
      | error e => exact .done (.same _)
      | ok tx => exact (c.settle_uncut hash now (.looked (.ok tx))).alike a b UpToClock.same
  | deep tx r =>
      cases r with
      | error e => exact .done (.same _)
      | ok height =>
          exact LockTime.alike_of_check a b tx _ _ (LockTime.check_upToClock height steady)
  | interrupted => exact .done (.same _)

theorem alike_turn (forward : String) (charge : Decimal) {stage : Stage}
    (steady : ∀ time ∈ stage.lockTime?,
      LockTime.SameAnswer agree time (c.wallClock now) (c.wallClock now')) :
    (c.turn forward charge now stage).Alike a b Eq (UpToClock agree fun e => .error (.validation e))
      (c.turn forward charge now' stage) := by
  cases stage with
  | looking tally => exact (c.turn_uncut forward charge now _).alike a b UpToClock.same
  | looked tally r =>
      cases r with
      | error e => exact .done (.same _)
      | ok deposits => exact (c.takeDeposits_uncut charge tally deposits).alike a b UpToClock.same
  | settling tally deposit rest s =>
      refine (c.alike_settle a b deposit.inputHash steady).within ?_ fun result result' same => ?_
      · rintro s _ rfl
        rfl
      · cases same with
        | ahead time readings => exact .done (.ahead time readings)
        | same result =>
            cases result with
            | error e => exact .done (.same _)
            | ok tx =>
                dsimp only
                split
                · exact .crash
                · exact (c.takeDeposits_uncut charge _ rest).alike a b UpToClock.same
  | interrupted => exact .done (.same _)

end Confirmer

end Dash

/-! ## Bitcoin Cash -/

namespace BitcoinCash

/-- The lock time that is about to be compared with the clock. -/
def Stage.lockTime? : Stage → Option Nat
  | deep _ tx (.ok _) => LockTime.time? tx.lockTime
  | _ => none

theorem Confirmer.alike_turn (c : Confirmer) (a b : Instant) (expected : Expectation)
    {now now' : Instant} {stage : Stage}
    (steady : ∀ time ∈ stage.lockTime?,
      LockTime.SameAnswer agree time (c.wallClock now) (c.wallClock now')) :
    (c.turn expected now stage).Alike a b Eq (UpToClock agree fun e => .error (.validation e))
      (c.turn expected now' stage) := by
  cases stage with
  | deep paid tx r =>
      cases r with
      | error e => exact .done (.same _)
      | ok height =>
          exact LockTime.alike_of_check a b paid _ _ (LockTime.check_upToClock height steady)
  | looking => exact (c.turn_uncut expected now _).alike a b UpToClock.same
  | looked r =>
      cases r with
      | error e => exact .done (.same _)
      | ok tx => exact (c.turn_uncut expected now (.looked (.ok tx))).alike a b UpToClock.same
  | waiting paid => exact (c.turn_uncut expected now _).alike a b UpToClock.same
  | waited paid r =>
      cases r with
      | error e => exact .done (.same _)
      | ok tx => exact (c.count_uncut paid tx).alike a b UpToClock.same
  | interrupted => exact .done (.same _)

end BitcoinCash

end Settlement
