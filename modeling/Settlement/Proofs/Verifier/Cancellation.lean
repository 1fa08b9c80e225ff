import Settlement.Proofs.Chain.Cancellation
import Settlement.Verifier

/-!
# Cancelling a verification

A verification is cancelled in a pause: one of the confirmation on its chain, of a deposit that is
settled on the way, or the one before another attempt. Wherever that is, the verification ends as
cancelled (`pauses_turn`). The same holds when a part of it ends so for any other reason (`Breaks`):
a cancellation is neither followed by another attempt nor taken for a failure of another kind.
-/

namespace Settlement

open Turn

namespace Verifier

/-- The verdict on a verification that was cancelled. -/
abbrev cancelled : Verdict := .error (.verification .cancelled)

/-- A part of a verification ends as cancelled: a confirmation, a deposit that was being settled, or
the pause before another attempt. -/
inductive Breaks (payment : Payment) (now : Instant) : Verifier → VerifierStage → Prop
  | attempt {c : Ethereum.Confirmer} {attempts : Nat} {retryPause : Duration} {hash : Hash}
      {expected : Ethereum.Expectation} {n : Nat} {s : Timed Ethereum.Stage}
      (ends : c.timedTurn hash expected s = .done (.error .cancelled)) :
      Breaks payment now (.ethereum c attempts retryPause)
        (.ethereum (.attempting hash expected n s))
  | retry {c : Ethereum.Confirmer} {attempts : Nat} {retryPause : Duration} :
      Breaks payment now (.ethereum c attempts retryPause) (.ethereum .interrupted)
  | dash {c : Dash.Confirmer} {forward : String} {s : Timed Dash.Stage}
      (ends : c.timedTurn forward payment.charge now s = .done (.error .cancelled)) :
      Breaks payment now (.dash c) (.dash forward s)
  | deposit {c : Dash.Confirmer} {forward : String} {deadline : Instant} {tally : Dash.Tally}
      {deposit : Dash.Deposit} {rest : List Dash.Deposit} {s : Dash.Settling}
      (ends : c.settle deposit.inputHash now s = .done (.error .cancelled)) :
      Breaks payment now (.dash c)
        (.dash forward (.running deadline (.settling tally deposit rest s)))
  | bitcoinCash {c : BitcoinCash.Confirmer} {expected : BitcoinCash.Expectation}
      {s : Timed BitcoinCash.Stage}
      (ends : c.timedTurn expected now s = .done (.error .cancelled)) :
      Breaks payment now (.bitcoinCash c) (.bitcoinCash expected s)

variable {v : Verifier} {request : Request} {payment : Payment} {now : Instant}
  {s : VerifierStage}

theorem attemptTurn_cancelled {c : Ethereum.Confirmer} {attempts : Nat} {retryPause : Duration}
    {hash : Hash} {expected : Ethereum.Expectation} {n : Nat} {s : Timed Ethereum.Stage}
    (ends : c.timedTurn hash expected s = .done (.error .cancelled)) :
    attemptTurn c attempts retryPause hash expected n s = .done cancelled := by
  rw [attemptTurn, ends]
  rfl

theorem dashTurn_cancelled {c : Dash.Confirmer} {forward : String} {s : Timed Dash.Stage}
    (ends : c.timedTurn forward payment.charge now s = .done (.error .cancelled)) :
    dashTurn c payment forward now s = .done cancelled := by
  rw [dashTurn, ends]
  rfl

theorem bitcoinCashTurn_cancelled {c : BitcoinCash.Confirmer} {expected : BitcoinCash.Expectation}
    {s : Timed BitcoinCash.Stage}
    (ends : c.timedTurn expected now s = .done (.error .cancelled)) :
    bitcoinCashTurn c expected now s = .done cancelled := by
  rw [bitcoinCashTurn, ends]
  rfl

/-- What cancels a part cancels the whole. -/
theorem Breaks.turn_eq (breaks : Breaks payment now v s) :
    v.turn payment now s = .done cancelled := by
  cases breaks with
  | attempt ends =>
      simp only [turn, ethereumTurn, attemptTurn_cancelled ends]
      rfl
  | retry => rfl
  | dash ends => exact dashTurn_cancelled ends
  | deposit ends =>
      refine dashTurn_cancelled ?_
      simp only [Dash.Confirmer.timedTurn, Timed.turn, Dash.Confirmer.turn, ends]
      rfl
  | bitcoinCash ends => exact bitcoinCashTurn_cancelled ends

/-- In each pause a cancellation leads to the end. -/
abbrev Interruptible (v : Verifier) (payment : Payment) (t : Step VerifierStage Verdict) : Prop :=
  t.Pauses fun _ next => ∀ later, v.turn payment later next = .done cancelled

theorem pauses_attemptTurn (c : Ethereum.Confirmer) (attempts : Nat) (retryPause : Duration)
    (hash : Hash) (expected : Ethereum.Expectation) (n : Nat) (s : Timed Ethereum.Stage)
    (payment : Payment) : (attemptTurn c attempts retryPause hash expected n s).Pauses
      fun _ next => ∀ later,
        (ethereum c attempts retryPause).turn payment later (.ethereum next) = .done cancelled := by
  refine pauses_within ?_ fun result => ?_
  · refine (((c.heeds hash expected).timed _).pauses 0 s).imp fun _ next ends later => ?_
    exact Breaks.turn_eq (.attempt (ends later))
  · rcases result with e | receipt
    · simp only [afterAttempt]
      split
      · exact fun later => rfl
      · trivial
    · trivial

theorem pauses_ethereumTurn (c : Ethereum.Confirmer) (attempts : Nat) (retryPause : Duration)
    (payment : Payment) (now : Instant) (s : EthereumStage) :
    (ethereumTurn c attempts retryPause payment now s).Pauses fun _ next => ∀ later,
      (ethereum c attempts retryPause).turn payment later (.ethereum next) = .done cancelled := by
  cases s with
  | addressed hash r =>
      rcases r with e | registered
      · trivial
      · simp only [ethereumTurn]
        split
        · trivial
        · exact pauses_attemptTurn _ _ _ _ _ _ _ _
  | attempting hash expected n s => exact pauses_attemptTurn _ _ _ _ _ _ _ _
  | retrying hash expected n => exact pauses_attemptTurn _ _ _ _ _ _ _ _
  | interrupted => trivial

theorem pauses_dashTurn (c : Dash.Confirmer) (payment : Payment) (forward : String) (now : Instant)
    (s : Timed Dash.Stage) :
    (dash c).Interruptible payment (dashTurn c payment forward now s) := by
  refine pauses_within ?_ fun _ => trivial
  refine (((c.heeds forward payment.charge).timed _).pauses now s).imp fun _ next ends later => ?_
  exact Breaks.turn_eq (.dash (ends later))

theorem pauses_bitcoinCashTurn (c : BitcoinCash.Confirmer) (payment : Payment)
    (expected : BitcoinCash.Expectation) (now : Instant) (s : Timed BitcoinCash.Stage) :
    (bitcoinCash c).Interruptible payment (bitcoinCashTurn c expected now s) := by
  refine pauses_within ?_ fun _ => trivial
  refine (((c.heeds expected).timed _).pauses now s).imp fun _ next ends later => ?_
  exact Breaks.turn_eq (.bitcoinCash (ends later))

theorem pauses_turn (v : Verifier) (payment : Payment) (now : Instant) (s : VerifierStage) :
    v.Interruptible payment (v.turn payment now s) := by
  cases s with
  | ethereum s =>
      cases v with
      | ethereum c attempts retryPause =>
          exact pauses_andThen (pauses_ethereumTurn _ _ _ _ _ _) fun _ => trivial
      | dash c => trivial
      | bitcoinCash c => trivial
  | dash forward s =>
      cases v with
      | dash c => exact pauses_dashTurn _ _ _ _ _
      | ethereum c attempts retryPause => trivial
      | bitcoinCash c => trivial
  | bitcoinCash expected s =>
      cases v with
      | bitcoinCash c => exact pauses_bitcoinCashTurn _ _ _ _ _
      | ethereum c attempts retryPause => trivial
      | dash c => trivial

theorem pauses_begin (v : Verifier) (request : Request) (payment : Payment) (now : Instant) :
    v.Interruptible payment (v.begin request payment now) := by
  unfold begin
  split
  · split <;> trivial
  · split
    · trivial
    · exact pauses_dashTurn _ _ _ _ _
  · split
    · exact pauses_bitcoinCashTurn _ _ _ _ _
    · trivial
  · trivial

end Verifier

end Settlement
