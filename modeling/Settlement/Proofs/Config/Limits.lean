import Settlement.Proofs.Config.Range
import Settlement.Proofs.Workflow.Screening
import Settlement.Queue.Consumer

/-!
# Settings that are too large

Settings are added and multiplied by those who use them: the time for which a payment is locked is
made of the deadline, the pause and the attempts, and the depth that a Dash transaction needs is one
more than what is required. A configuration is `Sturdy` if the slots, the locks and the counts of a
worker stand this, and `Moderate` says of which numbers that is true. Settings are not checked from
above, so an accepted configuration need not be so: it is sturdy exactly if it is moderate
(`sturdy_iff_moderate`).
-/

namespace Settlement

namespace Config

/-- How a worker verifies the payments of a chain; none where the chain is not configured. -/
def verifier? (c : Config) (wallClock : WallClock) : Blockchain → Option Verifier
  | .ethereum => c.ethereum.map fun e =>
    .ethereum ⟨e.policy, ⟨e.paymentContract, e.rtcToken⟩⟩ e.verifyAttempts e.retryPause
  | .dash => c.dash.map fun d => .dash ⟨d.policy, d.forwardPollInterval, wallClock⟩
  | .bitcoinCash => c.bitcoinCash.map fun b =>
    .bitcoinCash ⟨b.policy, b.depositAddress, b.strict, wallClock⟩

/-- What a worker makes of its settings stays in range. -/
structure Sturdy (c : Config) (wallClock : WallClock) : Prop where
  /-- A consumer has no more slots than it can have. -/
  slots : (Consumer.start c.queue.prefetch).limit ≤ Consumer.maxSlots
  /-- No worker breaks down when it takes the lock of a payment. -/
  locks : ∀ chain v, c.verifier? wallClock chain = some v →
    ∀ body, Workflow.receive v body ≠ .crash
  /-- All confirmations that are missing are waited for. -/
  counts : ∀ confirmer, c.verifier? wallClock .dash = some (.dash confirmer) →
    ∀ confirmations, confirmer.policy.required + 1 ≤ confirmations + confirmer.missing confirmations

/-- The settings, taken together, stay in the ranges of those who use them. -/
structure Moderate (c : Config) : Prop where
  prefetch : c.queue.prefetch < twoPow 61
  ethereum : ∀ e ∈ c.ethereum,
    (e.policy.deadline.secs + e.retryPause.secs) * e.verifyAttempts + 300 < twoPow 64
  dash : ∀ d ∈ c.dash, d.policy.deadline.secs + 300 < twoPow 64
  required : ∀ d ∈ c.dash, d.policy.required + 1 < twoPow 64
  bitcoinCash : ∀ b ∈ c.bitcoinCash, b.policy.deadline.secs + 300 < twoPow 64

end Config

/-! ## Times in whole seconds -/

namespace Duration

theorem secs_ofSecs (secs : Nat) : (ofSecs secs).secs = secs :=
  Nat.mul_div_cancel secs (by decide)

theorem Whole.secs_lt {d : Duration} (h : d.Whole) : d.secs < twoPow 64 := by
  obtain ⟨secs, small, rfl⟩ := h
  rwa [secs_ofSecs]

theorem Whole.ofSecs_secs {d : Duration} (h : d.Whole) : ofSecs d.secs = d := by
  obtain ⟨secs, -, rfl⟩ := h
  rw [secs_ofSecs]

theorem inRange_iff {d : Duration} : d.InRange ↔ d.nanos < twoPow 64 * nanosPerSecond :=
  Nat.le_sub_one_iff_lt (Nat.mul_pos (twoPow_pos 64) (by decide))

theorem inRange_ofSecs {secs : Nat} : (ofSecs secs).InRange ↔ secs < twoPow 64 :=
  inRange_iff.trans (Nat.mul_lt_mul_right (by decide))

theorem add?_ofSecs (a b : Nat) :
    (ofSecs a).add? (ofSecs b) = if a + b < twoPow 64 then some (ofSecs (a + b)) else none := by
  have sum : (⟨(ofSecs a).nanos + (ofSecs b).nanos⟩ : Duration) = ofSecs (a + b) :=
    congrArg Duration.mk (Nat.add_mul a b nanosPerSecond).symm
  simp only [add?, sum, inRange_ofSecs]

theorem scale?_ofSecs (a count : Nat) : (ofSecs a).scale? count =
    if a * count < twoPow 64 then some (ofSecs (a * count)) else none := by
  have product : (⟨(ofSecs a).nanos * count⟩ : Duration) = ofSecs (a * count) :=
    congrArg Duration.mk (Nat.mul_right_comm a nanosPerSecond count)
  simp only [scale?, product, inRange_ofSecs]

end Duration

/-! ## The time of a lock -/

namespace Verifier

/-- The longest verification takes so many seconds, where a word counts them. -/
def Lasts (v : Verifier) (secs : Nat) : Prop :=
  v.maxDuration? = if secs < twoPow 64 then some (.ofSecs secs) else none

/-- The deadlines and pauses of all attempts. -/
theorem lasts_ethereum {e : EthereumConfig} (ranges : e.InRange) (contracts : Ethereum.Contracts) :
    (ethereum ⟨e.policy, contracts⟩ e.verifyAttempts e.retryPause).Lasts
      ((e.policy.deadline.secs + e.retryPause.secs) * e.verifyAttempts) := by
  have made : attemptsMade e.verifyAttempts = e.verifyAttempts := Nat.max_eq_left ranges.attempted
  have hadd := Duration.add?_ofSecs e.policy.deadline.secs e.retryPause.secs
  rw [ranges.policy.deadline.ofSecs_secs, ranges.retryPause.ofSecs_secs] at hadd
  rw [Lasts, maxDuration?, hadd, made]
  by_cases h : e.policy.deadline.secs + e.retryPause.secs < twoPow 64
  · rw [if_pos h, Option.bind_eq_bind, Option.bind_some, Duration.scale?_ofSecs]
  · have wide : ¬ (e.policy.deadline.secs + e.retryPause.secs) * e.verifyAttempts < twoPow 64 :=
      fun small => h (Nat.lt_of_le_of_lt (Nat.le_mul_of_pos_right _ ranges.attempted) small)
    rw [if_neg h, if_neg wide, Option.bind_eq_bind, Option.bind_none]

/-- One deadline, on the other chains. -/
theorem lasts_of_deadline {v : Verifier} {p : Policy} (ranges : p.InRange)
    (h : v.maxDuration? = some p.deadline) : v.Lasts p.deadline.secs := by
  rw [Lasts, if_pos ranges.deadline.secs_lt, ranges.deadline.ofSecs_secs, h]

end Verifier

namespace Workflow

variable {v : Verifier}

theorem lockTtl?_eq_none_iff {secs : Nat} (lasts : v.Lasts secs) :
    lockTtl? v = none ↔ ¬ secs + 300 < twoPow 64 := by
  by_cases small : secs < twoPow 64
  · have hadd : lockTtl? v = (Duration.ofSecs secs).add? lockSlack := by
      rw [lockTtl?, lasts, if_pos small, Option.bind_eq_bind, Option.bind_some]
    rw [hadd, lockSlack, Duration.add?_ofSecs, ite_eq_right_iff]
    simp only [reduceCtorEq, imp_false]
  · have wide : ¬ secs + 300 < twoPow 64 := fun h =>
      small (Nat.lt_of_le_of_lt (Nat.le_add_right _ _) h)
    have endless : lockTtl? v = none := by
      rw [lockTtl?, lasts, if_neg small, Option.bind_eq_bind, Option.bind_none]
    exact ⟨fun _ => wide, fun _ => endless⟩

theorem receive_eq_crash_iff {body : ByteArray} : receive v body = .crash ↔ Endless v body := by
  constructor
  · intro crash
    rcases receive_cases v body with ⟨outcome, h⟩ | ⟨endless, -⟩ | ⟨request, ttl, -, h⟩
    · cases h.symm.trans crash
    · exact endless
    · cases h.symm.trans crash
  · rintro ⟨request, read, version, endless⟩
    rw [receive, read]
    dsimp only
    rw [if_neg (not_not_intro version), endless]

/-- A message without a version, which is of the current one. -/
def unversioned : Blockchain → String
  | .ethereum => "\x7b\"user_name\":\"alice\",\"payment_number\":1\x7d"
  | .dash => "\x7b\"user_name\":\"alice\",\"payment_forward_id\":\"f\",\"payment_number\":1\x7d"
  | .bitcoinCash => "\x7b\"user_name\":\"alice\",\"sender_address\":\"a\"," ++
    "\"recipient_address\":\"b\",\"payment_number\":1\x7d"

theorem ofBody?_unversioned (chain : Blockchain) : ∃ request,
    Request.ofBody? chain (unversioned chain).toUTF8 = .ok request ∧
      request.version = messageVersion := by
  cases chain with
  | ethereum => exact ⟨.ethereum ⟨1, "alice", 1⟩, by decide +kernel, rfl⟩
  | dash => exact ⟨.dash ⟨1, "alice", "f", 1⟩, by decide +kernel, rfl⟩
  | bitcoinCash => exact ⟨.bitcoinCash ⟨1, "alice", "a", "b", 1⟩, by decide +kernel, rfl⟩

/-- Taking the lock never breaks down exactly if its time is a duration. -/
theorem receive_ne_crash_iff {secs : Nat} (lasts : v.Lasts secs) :
    (∀ body, receive v body ≠ .crash) ↔ secs + 300 < twoPow 64 := by
  rw [← not_iff_not, ← lockTtl?_eq_none_iff lasts]
  constructor
  · intro breaks
    obtain ⟨body, crash⟩ := not_forall_not.1 breaks
    obtain ⟨request, -, -, endless⟩ := receive_eq_crash_iff.1 crash
    exact endless
  · intro endless sound
    obtain ⟨request, read, version⟩ := ofBody?_unversioned v.chain
    exact sound _ (receive_eq_crash_iff.2 ⟨request, read, version, endless⟩)

end Workflow

/-! ## Slots and counts -/

theorem Consumer.limit_start_le_iff {prefetch : Nat} :
    (start prefetch).limit ≤ maxSlots ↔ prefetch < twoPow 61 := by
  have one : 1 ≤ maxSlots := by decide +kernel
  change max prefetch 1 ≤ maxSlots ↔ _
  rw [Nat.max_le, and_iff_left one, maxSlots, Nat.le_sub_one_iff_lt (twoPow_pos 61)]

/-- All that is missing is waited for exactly if the depth that is needed fits a word. -/
theorem Dash.Confirmer.missing_iff {c : Confirmer} (fits : c.policy.required < twoPow 64) :
    (∀ confirmations, c.policy.required + 1 ≤ confirmations + c.missing confirmations) ↔
      c.policy.required + 1 < twoPow 64 := by
  constructor
  · intro counts
    by_contra wide
    -- The count has wrapped around, and one confirmation is all that is waited for.
    have full : c.policy.required + 1 = twoPow 64 := Nat.le_antisymm fits (Nat.le_of_not_lt wide)
    have wrapped : c.missing 0 = 1 := by
      rw [missing, full, Nat.mod_self]
      rfl
    have one := counts 0
    rw [wrapped, full] at one
    exact absurd one (by decide +kernel)
  · intro small confirmations
    rw [missing, Nat.mod_eq_of_lt small]
    omega

/-! ## The whole -/

namespace Config

section

variable {env : Variables} {c : Config}

/-- Whatever the attempts, deadlines and pauses below `2 ^ 31` seconds are short enough. -/
theorem moderate_of_short (accepted : ofVariables env = .ok c)
    (prefetch : c.queue.prefetch < twoPow 61)
    (ethereum : ∀ e ∈ c.ethereum,
      e.policy.deadline.secs < twoPow 31 ∧ e.retryPause.secs < twoPow 31)
    (dash : ∀ d ∈ c.dash, d.policy.deadline.secs < twoPow 31 ∧ d.policy.required < twoPow 31)
    (bitcoinCash : ∀ b ∈ c.bitcoinCash, b.policy.deadline.secs < twoPow 31) : c.Moderate := by
  have one {secs : Nat} (short : secs < twoPow 31) : secs + 300 < twoPow 64 :=
    Nat.lt_trans (Nat.add_lt_add_right short 300) (by decide +kernel)
  refine ⟨prefetch, fun e he => ?_, fun d hd => one (dash d hd).1, fun d hd => ?_,
    fun b hb => one (bitcoinCash b hb)⟩
  · have round : e.policy.deadline.secs + e.retryPause.secs ≤ twoPow 31 - 1 + (twoPow 31 - 1) :=
      Nat.add_le_add (Nat.le_sub_one_of_lt (ethereum e he).1)
        (Nat.le_sub_one_of_lt (ethereum e he).2)
    have attempts : e.verifyAttempts ≤ twoPow 32 - 1 :=
      Nat.le_sub_one_of_lt ((inRange_of_ofVariables accepted).ethereum e he).attempts
    calc (e.policy.deadline.secs + e.retryPause.secs) * e.verifyAttempts + 300
      _ ≤ (twoPow 31 - 1 + (twoPow 31 - 1)) * (twoPow 32 - 1) + 300 :=
        Nat.add_le_add_right (Nat.mul_le_mul round attempts) 300
      _ < twoPow 64 := by decide +kernel
  · exact Nat.lt_of_lt_of_le (Nat.succ_lt_succ (dash d hd).2) (by decide +kernel)

/-- **What an accepted configuration stands.** It is sturdy exactly if it is moderate. -/
theorem sturdy_iff_moderate (accepted : ofVariables env = .ok c) (wallClock : WallClock) :
    c.Sturdy wallClock ↔ c.Moderate := by
  have ranges := inRange_of_ofVariables accepted
  have ethereum (e : EthereumConfig) (he : e ∈ c.ethereum) :=
    Workflow.receive_ne_crash_iff
      (Verifier.lasts_ethereum (ranges.ethereum e he) ⟨e.paymentContract, e.rtcToken⟩)
  have dash (d : DashConfig) (hd : d ∈ c.dash) :=
    Workflow.receive_ne_crash_iff (Verifier.lasts_of_deadline (ranges.dash d hd).policy
      (v := .dash ⟨d.policy, d.forwardPollInterval, wallClock⟩) rfl)
  have bitcoinCash (b : BitcoinCashConfig) (hb : b ∈ c.bitcoinCash) :=
    Workflow.receive_ne_crash_iff (Verifier.lasts_of_deadline (ranges.bitcoinCash b hb)
      (v := .bitcoinCash ⟨b.policy, b.depositAddress, b.strict, wallClock⟩) rfl)
  have counts (d : DashConfig) (hd : d ∈ c.dash) :=
    Dash.Confirmer.missing_iff (c := ⟨d.policy, d.forwardPollInterval, wallClock⟩)
      (ranges.dash d hd).policy.required
  constructor
  · intro sturdy
    refine ⟨Consumer.limit_start_le_iff.1 sturdy.slots,
      fun e he => (ethereum e he).1 (sturdy.locks .ethereum _ ?_),
      fun d hd => (dash d hd).1 (sturdy.locks .dash _ ?_),
      fun d hd => (counts d hd).1 (sturdy.counts _ ?_),
      fun b hb => (bitcoinCash b hb).1 (sturdy.locks .bitcoinCash _ ?_)⟩
    · exact Option.map_eq_some_iff.2 ⟨e, he, rfl⟩
    · exact Option.map_eq_some_iff.2 ⟨d, hd, rfl⟩
    · exact Option.map_eq_some_iff.2 ⟨d, hd, rfl⟩
    · exact Option.map_eq_some_iff.2 ⟨b, hb, rfl⟩
  · intro moderate
    refine ⟨Consumer.limit_start_le_iff.2 moderate.prefetch, fun chain v hv => ?_,
      fun confirmer hv => ?_⟩
    · cases chain with
      | ethereum =>
          obtain ⟨e, he, rfl⟩ := Option.map_eq_some_iff.1 hv
          exact (ethereum e he).2 (moderate.ethereum e he)
      | dash =>
          obtain ⟨d, hd, rfl⟩ := Option.map_eq_some_iff.1 hv
          exact (dash d hd).2 (moderate.dash d hd)
      | bitcoinCash =>
          obtain ⟨b, hb, rfl⟩ := Option.map_eq_some_iff.1 hv
          exact (bitcoinCash b hb).2 (moderate.bitcoinCash b hb)
    · obtain ⟨d, hd, heq⟩ := Option.map_eq_some_iff.1 hv
      obtain rfl := Verifier.dash.inj heq
      exact (counts d hd).2 (moderate.required d hd)

end

namespace Overlong

/-- A deadline that is a duration, and attempts that fit their word. -/
def env : Variables :=
  [("DATABASE_URL", "postgres://payments"), ("HOSTNAME", "worker-1"),
    ("ETH_RPC_URL", "http://node"),
    ("PAYMENT_CONTRACT_ADDRESS", "0xaaaaaaaaaaaaaaaaaaaaaaaaaaaaaaaaaaaaaaaa"),
    ("RTC_ADDRESS", "0xbbbbbbbbbbbbbbbbbbbbbbbbbbbbbbbbbbbbbbbb"),
    ("ETH_DEADLINE_SECS", "18446744073709551"), ("ETH_VERIFY_ATTEMPTS", "1024")]

def ethereum : EthereumConfig where
  rpcUrl := "http://node"
  rpcFallback := none
  paymentContract := 0xaaaaaaaaaaaaaaaaaaaaaaaaaaaaaaaaaaaaaaaa
  rtcToken := 0xbbbbbbbbbbbbbbbbbbbbbbbbbbbbbbbbbbbbbbbb
  policy := ⟨3, .ofSecs 15, .ofSecs 18446744073709551⟩
  verifyAttempts := 1024
  retryPause := .ofSecs 15

def config : Config where
  environment := .development
  databaseUrl := "postgres://payments"
  rpcTimeout := .ofSecs 30
  queue := ⟨"redis://localhost:6379", 10, "pay-confirm", some "worker-1", .ofSecs 5, .ofSecs 600⟩
  ethereum := some ethereum
  dash := none
  bitcoinCash := none

theorem accepted : ofVariables env = .ok config := by decide +kernel

end Overlong

/-- Each number is in its range, but the time of a lock is not, and workers break down. -/
theorem sturdy_iff_moderate_overlong :
    ofVariables Overlong.env = .ok Overlong.config ∧ ¬ Overlong.config.Sturdy fun _ => 0 := by
  refine ⟨Overlong.accepted, fun sturdy => ?_⟩
  have moderate := (sturdy_iff_moderate Overlong.accepted fun _ => 0).1 sturdy
  exact absurd (moderate.ethereum Overlong.ethereum rfl) (by decide +kernel)

end Config

end Settlement
