import Settlement.Proofs.Chain.LockTimes

/-!
# A verification at another time

All that a verification knows of the time is the deadline of the confirmation that is under way, and
the clock with which it compares a lock time. So a verification that goes on at `a + t` does what it
does at `b + t`, when its stages there are alike (`VerifierStage.Alike`) and the clock says the same
of the lock time that is compared with it.
-/

namespace Settlement

/-- The verification is at one stage after `a` and after `b`. -/
inductive VerifierStage.Alike (a b : Instant) : VerifierStage → VerifierStage → Prop
  | addressed (hash : Hash) (r : Except StoreError (Option String)) :
      Alike a b (.ethereum (.addressed hash r)) (.ethereum (.addressed hash r))
  | attempting (hash : Hash) (expected : Ethereum.Expectation) (attempt : Nat)
      {s s' : Timed Ethereum.Stage} (stages : Timed.Alike a b s s') :
      Alike a b (.ethereum (.attempting hash expected attempt s))
        (.ethereum (.attempting hash expected attempt s'))
  | retrying (hash : Hash) (expected : Ethereum.Expectation) (attempt : Nat) :
      Alike a b (.ethereum (.retrying hash expected attempt))
        (.ethereum (.retrying hash expected attempt))
  | interrupted : Alike a b (.ethereum .interrupted) (.ethereum .interrupted)
  | dash (forward : String) {s s' : Timed Dash.Stage} (stages : Timed.Alike a b s s') :
      Alike a b (.dash forward s) (.dash forward s')
  | bitcoinCash (expected : BitcoinCash.Expectation) {s s' : Timed BitcoinCash.Stage}
      (stages : Timed.Alike a b s s') :
      Alike a b (.bitcoinCash expected s) (.bitcoinCash expected s')

/-- The lock time that is about to be compared with the clock. -/
def VerifierStage.lockTime? : VerifierStage → Option Nat
  | dash _ (.running _ s) => s.lockTime?
  | bitcoinCash _ (.running _ s) => s.lockTime?
  | _ => none

theorem mem_lockTime?_dash {forward : String} {s : Timed Dash.Stage} {stage : Dash.Stage}
    {time : Nat} (hstage : stage ∈ s.stage?) (htime : time ∈ stage.lockTime?) :
    time ∈ (VerifierStage.dash forward s).lockTime? := by
  cases s with
  | running limit s =>
      obtain rfl := Option.some.inj hstage
      exact htime
  | expired => cases hstage

theorem mem_lockTime?_bitcoinCash {expected : BitcoinCash.Expectation}
    {s : Timed BitcoinCash.Stage} {stage : BitcoinCash.Stage} {time : Nat}
    (hstage : stage ∈ s.stage?) (htime : time ∈ stage.lockTime?) :
    time ∈ (VerifierStage.bitcoinCash expected s).lockTime? := by
  cases s with
  | running limit s =>
      obtain rfl := Option.some.inj hstage
      exact htime
  | expired => cases hstage

namespace Verifier

/-- The clock that the verifier compares lock times with. On Ethereum there are none. -/
def wallClock : Verifier → WallClock
  | ethereum _ _ _ => fun _ => 0
  | dash c => c.wallClock
  | bitcoinCash c => c.wallClock

/-- The verdict on a transaction that is no acceptable payment. -/
def refused (e : ValidationError) : Verdict := .error (.verification (.validation e))

variable {agree : Nat → Nat → Prop} {a b : Instant}

/-- The stages of an Ethereum verification are alike as ones of any verification. -/
def LikeAttempts (a b : Instant) (s s' : EthereumStage) : Prop :=
  VerifierStage.Alike a b (.ethereum s) (.ethereum s')

theorem alike_afterAttempt (attempts : Nat) (retryPause : Duration) (hash : Hash)
    (expected : Ethereum.Expectation) (attempt : Nat)
    (result : Except ConfirmationError Ethereum.Receipt) :
    (afterAttempt attempts retryPause hash expected attempt result).Alike a b (LikeAttempts a b) Eq
      (afterAttempt attempts retryPause hash expected attempt result) := by
  cases result with
  | ok receipt => exact .done rfl
  | error e =>
      unfold afterAttempt
      dsimp only
      by_cases again : (e.isRetryable && decide (attempt < attemptsMade attempts)) = true
      · rw [if_pos again]
        exact .pause .none (VerifierStage.Alike.retrying hash expected (attempt + 1))
          VerifierStage.Alike.interrupted
      · rw [if_neg again]
        exact .done rfl

theorem alike_attemptTurn (c : Ethereum.Confirmer) (attempts : Nat) (retryPause : Duration)
    (hash : Hash) (expected : Ethereum.Expectation) (attempt : Nat) {s s' : Timed Ethereum.Stage}
    (stages : Timed.Alike a b s s') :
    (attemptTurn c attempts retryPause hash expected attempt s).Alike a b (LikeAttempts a b) Eq
      (attemptTurn c attempts retryPause hash expected attempt s') := by
  have turns : (c.timedTurn hash expected s).Alike a b (Timed.Alike a b) Eq
      (c.timedTurn hash expected s') :=
    stages.turn rfl fun stage _ => (c.turn_uncut hash expected stage).alike a b fun _ => rfl
  refine turns.within ?_ ?_
  · exact fun s s' stages => .attempting hash expected attempt stages
  · rintro result _ rfl
    exact alike_afterAttempt attempts retryPause hash expected attempt result

theorem alike_ethereumTurn (c : Ethereum.Confirmer) (attempts : Nat) (retryPause : Duration)
    (payment : Payment) (t : Nat) {s s' : EthereumStage} (stages : LikeAttempts a b s s') :
    (ethereumTurn c attempts retryPause payment (a + t) s).Alike a b (LikeAttempts a b) Eq
      (ethereumTurn c attempts retryPause payment (b + t) s') := by
  cases stages with
  | addressed hash r =>
      cases r with
      | error e => exact .done rfl
      | ok registered =>
          simp only [ethereumTurn]
          cases expectation payment registered with
          | error reason => exact .done rfl
          | ok expected =>
              exact alike_attemptTurn c attempts retryPause hash expected 1
                (Timed.alike_start a b t c.policy.deadline _)
  | attempting hash expected attempt stages =>
      exact alike_attemptTurn c attempts retryPause hash expected attempt stages
  | retrying hash expected attempt =>
      exact alike_attemptTurn c attempts retryPause hash expected attempt
        (Timed.alike_start a b t c.policy.deadline _)
  | interrupted => exact .done rfl

/-- The verdict on a confirmation that comes to the same up to the clock is the same up to it. -/
theorem upToClock_verdict {α : Type} {result result' : Except ConfirmationError α}
    (same : UpToClock agree (fun e => .error (.validation e)) result result') :
    UpToClock agree refused (verdict result) (verdict result') := by
  cases same with
  | same result => exact .same _
  | ahead time readings => exact .ahead time readings

theorem alike_dashTurn (c : Dash.Confirmer) (payment : Payment) (forward : String)
    {now now' : Instant} {s s' : Timed Dash.Stage} (stages : Timed.Alike a b s s')
    (steady : ∀ stage ∈ s.stage?, ∀ time ∈ stage.lockTime?,
      LockTime.SameAnswer agree time (c.wallClock now) (c.wallClock now')) :
    (dashTurn c payment forward now s).Alike a b (VerifierStage.Alike a b) (UpToClock agree refused)
      (dashTurn c payment forward now' s') := by
  have turns : (c.timedTurn forward payment.charge now s).Alike a b (Timed.Alike a b)
      (UpToClock agree fun e => .error (.validation e))
      (c.timedTurn forward payment.charge now' s') :=
    stages.turn (.same _) fun stage hstage =>
      c.alike_turn a b forward payment.charge (steady stage hstage)
  exact turns.within (fun s s' stages => .dash forward stages) fun result result' same =>
    .done (upToClock_verdict same)

theorem alike_bitcoinCashTurn (c : BitcoinCash.Confirmer) (expected : BitcoinCash.Expectation)
    {now now' : Instant} {s s' : Timed BitcoinCash.Stage} (stages : Timed.Alike a b s s')
    (steady : ∀ stage ∈ s.stage?, ∀ time ∈ stage.lockTime?,
      LockTime.SameAnswer agree time (c.wallClock now) (c.wallClock now')) :
    (bitcoinCashTurn c expected now s).Alike a b (VerifierStage.Alike a b) (UpToClock agree refused)
      (bitcoinCashTurn c expected now' s') := by
  have turns : (c.timedTurn expected now s).Alike a b (Timed.Alike a b)
      (UpToClock agree fun e => .error (.validation e)) (c.timedTurn expected now' s') :=
    stages.turn (.same _) fun stage hstage => c.alike_turn a b expected (steady stage hstage)
  exact turns.within (fun s s' stages => .bitcoinCash expected stages) fun result result' same =>
    .done (upToClock_verdict same)

theorem alike_begin (v : Verifier) (request : Request) (payment : Payment) (t : Nat) :
    (v.begin request payment (a + t)).Alike a b (VerifierStage.Alike a b) (UpToClock agree refused)
      (v.begin request payment (b + t)) := by
  unfold begin
  split
  · split
    · exact .done (.same _)
    next hash _ => exact .ask .none fun r => .addressed hash r
  next c r =>
    split
    · exact .done (.same _)
    · refine alike_dashTurn c payment r.forwardId (Timed.alike_start a b t c.policy.deadline _) ?_
      rintro stage ⟨⟩ time ⟨⟩
  next c r =>
    split
    · refine alike_bitcoinCashTurn c _ (Timed.alike_start a b t c.policy.deadline _) ?_
      rintro stage ⟨⟩ time ⟨⟩
    · exact .done (.same _)
  · exact .done (.same _)

theorem alike_turn (v : Verifier) (payment : Payment) (t : Nat) {s s' : VerifierStage}
    (stages : VerifierStage.Alike a b s s')
    (steady : ∀ time ∈ s.lockTime?,
      LockTime.SameAnswer agree time (v.wallClock (a + t)) (v.wallClock (b + t))) :
    (v.turn payment (a + t) s).Alike a b (VerifierStage.Alike a b) (UpToClock agree refused)
      (v.turn payment (b + t) s') := by
  have attempts : ∀ s s' : EthereumStage, LikeAttempts a b s s' →
      (v.turn payment (a + t) (.ethereum s)).Alike a b (VerifierStage.Alike a b)
        (UpToClock agree refused) (v.turn payment (b + t) (.ethereum s')) := by
    intro s s' stages
    cases v with
    | ethereum c attempts retryPause =>
        refine (alike_ethereumTurn c attempts retryPause payment t stages).within
          (fun s s' stages => stages) ?_
        rintro result _ rfl
        exact .done (.same result)
    | dash c => exact .done (.same _)
    | bitcoinCash c => exact .done (.same _)
  cases stages with
  | addressed hash r => exact attempts _ _ (.addressed hash r)
  | attempting hash expected attempt stages =>
      exact attempts _ _ (.attempting hash expected attempt stages)
  | retrying hash expected attempt => exact attempts _ _ (.retrying hash expected attempt)
  | interrupted => exact attempts _ _ .interrupted
  | dash forward stages =>
      cases v with
      | dash c =>
          exact alike_dashTurn c payment forward stages fun stage hstage time htime =>
            steady time (mem_lockTime?_dash hstage htime)
      | ethereum c attempts retryPause => exact .done (.same _)
      | bitcoinCash c => exact .done (.same _)
  | bitcoinCash expected stages =>
      cases v with
      | bitcoinCash c =>
          exact alike_bitcoinCashTurn c expected stages fun stage hstage time htime =>
            steady time (mem_lockTime?_bitcoinCash hstage htime)
      | ethereum c attempts retryPause => exact .done (.same _)
      | dash c => exact .done (.same _)

end Verifier

end Settlement
