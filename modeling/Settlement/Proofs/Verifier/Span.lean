import Settlement.Proofs.Pace
import Settlement.Verifier

/-!
# How long a verification takes

On a chain nothing has a deadline but the whole confirmation, so a verification on Dash or Bitcoin
Cash is over when that is. On Ethereum each attempt has a deadline of its own, and after each but
the last there may be a pause: the `n`-th attempt begins when `n - 1` attempts and pauses may be
over.
`Verifier.Within` says so for every stage of a verification that began at an instant, provided that
the store answers at once, and each turn keeps it (`Within.next`).
-/

namespace Settlement

/-- The call is one to a node or a service of a chain. -/
def Call.isRemote : Call → Bool
  | ethereum _ => true
  | dash _ => true
  | bitcoinCash _ => true
  | _ => false

/-- The calls that take no time: all but the ones to a chain. -/
def Call.Prompt (call : Call) : Prop := call.isRemote = false

theorem Ethereum.Confirmer.turn_uncut (c : Confirmer) (hash : Hash) (expected : Expectation)
    (stage : Stage) : (c.turn hash expected stage).Uncut := by
  cases stage with
  | looking => rfl
  | looked r =>
      rcases r with e | _ | tx
      · trivial
      · trivial
      · simp only [turn]
        split <;> rfl
  | placed r =>
      rcases r with e | _ | receipt
      · trivial
      · trivial
      · simp only [turn]
        split
        · trivial
        · rfl
  | counting block last => rfl
  | counted block last r =>
      cases r with
      | error e => trivial
      | ok head =>
          simp only [turn]
          split
          · rfl
          · split <;> rfl
  | buried r => rcases r with e | _ | receipt <;> trivial
  | settled receipt r =>
      rcases r with e | _ | tx
      · trivial
      · trivial
      · simp only [turn]
        split <;> trivial
  | interrupted => trivial

theorem BitcoinCash.Confirmer.count_uncut (c : Confirmer) (paid : Decimal) (tx : Transaction) :
    (c.count paid tx).Uncut := by
  unfold count
  split <;> rfl

theorem BitcoinCash.Confirmer.turn_uncut (c : Confirmer) (expected : Expectation) (now : Instant)
    (stage : Stage) : (c.turn expected now stage).Uncut := by
  cases stage with
  | looking => rfl
  | looked r =>
      cases r with
      | error e => trivial
      | ok tx =>
          simp only [turn]
          split
          · trivial
          · split
            · trivial
            · exact c.count_uncut _ _
  | waiting paid => rfl
  | waited paid r =>
      cases r with
      | error e => trivial
      | ok tx => exact c.count_uncut _ _
  | deep paid tx r =>
      cases r with
      | error e => trivial
      | ok height =>
          simp only [turn]
          split <;> trivial
  | interrupted => trivial

theorem Dash.Confirmer.takeDeposits_uncut (c : Confirmer) (charge : Decimal) (tally : Tally)
    (deposits : List Deposit) : (c.takeDeposits charge tally deposits).Uncut := by
  unfold takeDeposits
  split
  · rfl
  · split
    · trivial
    · rfl

theorem Dash.Confirmer.settle_uncut (c : Confirmer) (hash : String) (now : Instant)
    (s : Settling) : (c.settle hash now s).Uncut := by
  cases s with
  | looking => rfl
  | looked r =>
      cases r with
      | error e => trivial
      | ok tx =>
          simp only [settle]
          split <;> rfl
  | deep tx r =>
      cases r with
      | error e => trivial
      | ok height =>
          simp only [settle]
          split <;> trivial
  | interrupted => trivial

theorem Dash.Confirmer.turn_uncut (c : Confirmer) (forward : String) (charge : Decimal)
    (now : Instant) (stage : Stage) : (c.turn forward charge now stage).Uncut := by
  cases stage with
  | looking tally => rfl
  | looked tally r =>
      cases r with
      | error e => trivial
      | ok deposits => exact c.takeDeposits_uncut _ _ _
  | settling tally deposit rest s =>
      refine Turn.uncut_within (c.settle_uncut _ now s) fun result => ?_
      cases result with
      | error e => trivial
      | ok tx =>
          dsimp only
          split
          · trivial
          · exact c.takeDeposits_uncut _ _ _
  | interrupted => trivial

namespace Verifier

/-- The verification of an Ethereum payment, which began at `first`, goes on at `wake`, not later
than it may at its stage. -/
def AttemptsWithin (c : Ethereum.Confirmer) (attempts : Nat) (retryPause : Duration)
    (first : Instant) : EthereumStage → Instant → Prop
  | .addressed _ _, wake => wake ≤ first
  | .attempting _ _ attempt s, wake => 1 ≤ attempt ∧ attempt ≤ attemptsMade attempts ∧
      s.Until (first + (attempt - 1) * (c.policy.deadline.nanos + retryPause.nanos) +
        c.policy.deadline.nanos) wake
  | .retrying _ _ attempt, wake => 1 ≤ attempt ∧ attempt ≤ attemptsMade attempts ∧
      wake ≤ first + (attempt - 1) * (c.policy.deadline.nanos + retryPause.nanos)
  | .interrupted, wake =>
      wake ≤ first + attemptsMade attempts * (c.policy.deadline.nanos + retryPause.nanos)

/-- The verification, which began at `first`, goes on at `wake`, not later than it may at its stage.
-/
def Within (v : Verifier) (first : Instant) (s : VerifierStage) (wake : Instant) : Prop :=
  match v, s with
  | ethereum c attempts retryPause, .ethereum s => AttemptsWithin c attempts retryPause first s wake
  | dash c, .dash _ s => s.Until (first + c.policy.deadline.nanos) wake
  | bitcoinCash c, .bitcoinCash _ s => s.Until (first + c.policy.deadline.nanos) wake
  | _, _ => False

section

variable {v : Verifier} {request : Request} {payment : Payment} {first now wake : Instant}
  {s s' : VerifierStage} {length : Duration} {c : Ethereum.Confirmer} {attempts : Nat}
  {retryPause : Duration} {asked : List (Asked Call Call.Reply)}

theorem nanos_scale? {d : Duration} {count : Nat} (h : d.scale? count = some length) :
    length.nanos = d.nanos * count := by
  unfold Duration.scale? at h
  split at h
  next => exact Option.some.inj h ▸ rfl
  next => cases h

theorem nanos_add? {a b : Duration} (h : a.add? b = some length) :
    length.nanos = a.nanos + b.nanos := by
  unfold Duration.add? at h
  split at h
  next => exact Option.some.inj h ▸ rfl
  next => cases h

theorem nanos_maxDuration? (h : (ethereum c attempts retryPause).maxDuration? = some length) :
    length.nanos = attemptsMade attempts * (c.policy.deadline.nanos + retryPause.nanos) := by
  simp only [maxDuration?, Option.bind_eq_bind, Option.bind_eq_some_iff] at h
  obtain ⟨round, hround, hscale⟩ := h
  rw [nanos_scale? hscale, nanos_add? hround, Nat.mul_comm]

/-- The time of a round more. -/
theorem add_round {attempt : Nat} (h : 1 ≤ attempt) (round : Nat) :
    (attempt - 1) * round + round = attempt * round := by
  rw [← Nat.succ_mul, Nat.succ_eq_add_one, Nat.sub_add_cancel h]

/-- A failed attempt that may be repeated is followed by a pause. -/
theorem within_afterAttempt {hash : Hash} {expected : Ethereum.Expectation} {attempt : Nat}
    {result : Except ConfirmationError Ethereum.Receipt} {next : EthereumStage}
    (one : 1 ≤ attempt)
    (ended : now ≤ first + (attempt - 1) * (c.policy.deadline.nanos + retryPause.nanos) +
      c.policy.deadline.nanos)
    (goes : (afterAttempt attempts retryPause hash expected attempt result).Goes Call.Prompt now
      asked next wake) : AttemptsWithin c attempts retryPause first next wake := by
  cases result with
  | ok receipt => exact goes.elim
  | error e =>
      simp only [afterAttempt] at goes
      split at goes
      next again =>
        have hless : attempt < attemptsMade attempts := by
          simpa using (Bool.and_eq_true_iff.1 again).2
        obtain ⟨hwake, hnext⟩ := Turn.goes_pause goes
        have hround := add_round one (c.policy.deadline.nanos + retryPause.nanos)
        have hlate : wake ≤ first + attempt * (c.policy.deadline.nanos + retryPause.nanos) := by
          unfold Instant at *
          omega
        rcases hnext with rfl | rfl
        · exact ⟨Nat.le_add_left _ _, hless, hlate⟩
        · refine Nat.le_trans hlate (Nat.add_le_add_left ?_ first)
          exact Nat.mul_le_mul_right _ (Nat.le_of_lt hless)
      next => exact goes.elim

theorem within_attemptTurn {hash : Hash} {expected : Ethereum.Expectation} {attempt : Nat}
    {s : Timed Ethereum.Stage} {next : EthereumStage} (one : 1 ≤ attempt)
    (made : attempt ≤ attemptsMade attempts)
    (inTime : s.Until (first + (attempt - 1) * (c.policy.deadline.nanos + retryPause.nanos) +
      c.policy.deadline.nanos) now)
    (goes : (attemptTurn c attempts retryPause hash expected attempt s).Goes Call.Prompt now
      asked next wake) : AttemptsWithin c attempts retryPause first next wake := by
  rcases Turn.goes_within goes with ⟨result, -, goes⟩ | ⟨inner, s', inside, rfl⟩
  · exact within_afterAttempt one inTime.le goes
  · exact ⟨one, made, inTime.next (c.turn_uncut hash expected) inside⟩

theorem AttemptsWithin.next {stage next : EthereumStage}
    (within : AttemptsWithin c attempts retryPause first stage now)
    (goes : (ethereumTurn c attempts retryPause payment now stage).Goes Call.Prompt now asked next
      wake) : AttemptsWithin c attempts retryPause first next wake := by
  cases stage with
  | addressed hash r =>
      cases r with
      | error e => exact goes.elim
      | ok registered =>
          simp only [ethereumTurn] at goes
          split at goes
          next => exact goes.elim
          next =>
            refine within_attemptTurn (Nat.le_refl 1) (Nat.le_max_right _ _) ?_ goes
            refine Timed.until_start (Nat.add_le_add_right ?_ _)
            rw [Nat.sub_self, Nat.zero_mul]
            exact within
  | attempting hash expected attempt s =>
      obtain ⟨one, made, inTime⟩ := within
      exact within_attemptTurn one made inTime goes
  | retrying hash expected attempt =>
      obtain ⟨one, made, hnow⟩ := within
      exact within_attemptTurn one made (Timed.until_start (Nat.add_le_add_right hnow _)) goes
  | interrupted => exact goes.elim

theorem within_dashTurn {c : Dash.Confirmer} {forward : String} {s : Timed Dash.Stage}
    {next : VerifierStage} (inTime : s.Until (first + c.policy.deadline.nanos) now)
    (goes : (dashTurn c payment forward now s).Goes Call.Prompt now asked next wake) :
    (dash c).Within first next wake := by
  rcases Turn.goes_within goes with ⟨result, -, goes⟩ | ⟨inner, s', inside, rfl⟩
  · exact goes.elim
  · exact inTime.next (c.turn_uncut forward payment.charge now) inside

theorem within_bitcoinCashTurn {c : BitcoinCash.Confirmer} {expected : BitcoinCash.Expectation}
    {s : Timed BitcoinCash.Stage} {next : VerifierStage}
    (inTime : s.Until (first + c.policy.deadline.nanos) now)
    (goes : (bitcoinCashTurn c expected now s).Goes Call.Prompt now asked next wake) :
    (bitcoinCash c).Within first next wake := by
  rcases Turn.goes_within goes with ⟨result, -, goes⟩ | ⟨inner, s', inside, rfl⟩
  · exact goes.elim
  · exact inTime.next (c.turn_uncut expected now) inside

/-- A verification begins in time. -/
theorem within_begin (hnow : now ≤ first)
    (goes : (v.begin request payment now).Goes Call.Prompt now asked s' wake) :
    v.Within first s' wake := by
  unfold begin at goes
  split at goes
  next c attempts retryPause _ =>
    split at goes
    next => exact goes.elim
    next hash hhash =>
      obtain ⟨r, -, rfl⟩ := Turn.leads_ask.1 goes.leads
      have prompt : Call.Prompt (.findAddress payment.user) := rfl
      exact Turn.goes_prompt prompt goes ▸ hnow
  next =>
    split at goes
    next => exact goes.elim
    next => exact within_dashTurn (Timed.until_start (Nat.add_le_add_right hnow _)) goes
  next =>
    split at goes
    next => exact within_bitcoinCashTurn (Timed.until_start (Nat.add_le_add_right hnow _)) goes
    next => exact goes.elim
  next => exact goes.elim

/-- Each turn of a verification keeps it in time. -/
theorem Within.next (within : v.Within first s now)
    (goes : (v.turn payment now s).Goes Call.Prompt now asked s' wake) :
    v.Within first s' wake := by
  cases s with
  | ethereum s =>
      cases v with
      | ethereum c attempts retryPause =>
          rcases Turn.goes_andThen goes with ⟨verdict, -, goes⟩ | ⟨inner, next, inside, rfl⟩
          · exact goes.elim
          · exact AttemptsWithin.next within inside
      | dash c => exact within.elim
      | bitcoinCash c => exact within.elim
  | dash forward s =>
      cases v with
      | dash c => exact within_dashTurn within goes
      | ethereum c attempts retryPause => exact within.elim
      | bitcoinCash c => exact within.elim
  | bitcoinCash expected s =>
      cases v with
      | bitcoinCash c => exact within_bitcoinCashTurn within goes
      | ethereum c attempts retryPause => exact within.elim
      | dash c => exact within.elim

theorem AttemptsWithin.le {stage : EthereumStage}
    (within : AttemptsWithin c attempts retryPause first stage wake) :
    wake ≤ first + attemptsMade attempts * (c.policy.deadline.nanos + retryPause.nanos) := by
  have hrounds : ∀ {attempt : Nat}, 1 ≤ attempt → attempt ≤ attemptsMade attempts →
      (attempt - 1) * (c.policy.deadline.nanos + retryPause.nanos) +
        (c.policy.deadline.nanos + retryPause.nanos) ≤
      attemptsMade attempts * (c.policy.deadline.nanos + retryPause.nanos) := by
    intro attempt one made
    rw [add_round one]
    exact Nat.mul_le_mul_right _ made
  cases stage with
  | addressed hash r => exact Nat.le_trans within (Nat.le_add_right _ _)
  | attempting hash expected attempt s =>
      obtain ⟨one, made, inTime⟩ := within
      have hlate := inTime.le
      have hround := hrounds one made
      unfold Instant at *
      omega
  | retrying hash expected attempt =>
      obtain ⟨one, made, hwake⟩ := within
      have hround := hrounds one made
      unfold Instant at *
      omega
  | interrupted => exact within

/-- No verification takes longer than its longest time. -/
theorem Within.le (within : v.Within first s wake) (longest : v.maxDuration? = some length) :
    wake ≤ first + length.nanos := by
  cases v with
  | ethereum c attempts retryPause =>
      cases s with
      | ethereum s => exact nanos_maxDuration? longest ▸ AttemptsWithin.le within
      | dash forward s => exact within.elim
      | bitcoinCash expected s => exact within.elim
  | dash c =>
      obtain rfl := Option.some.inj longest
      cases s with
      | dash forward s => exact Timed.Until.le within
      | ethereum s => exact within.elim
      | bitcoinCash expected s => exact within.elim
  | bitcoinCash c =>
      obtain rfl := Option.some.inj longest
      cases s with
      | bitcoinCash expected s => exact Timed.Until.le within
      | ethereum s => exact within.elim
      | dash forward s => exact within.elim

end

end Verifier

end Settlement
