import Settlement.Config
import Settlement.Proofs.Json.Fields

/-!
# The range of the settings

A setting is a whole number of 64 bits, or of 32 bits for the attempts on Ethereum, and a time is
given in whole seconds. `Config.InRange` says this of all settings, and that no fetch and no
verification is of nothing. It is all that is known of a configuration that is accepted
(`inRange_of_ofVariables`): there is no check from above.
-/

namespace Settlement

open Json (of_bind)

/-- Whole seconds, counted by a 64-bit word. -/
def Duration.Whole (d : Duration) : Prop := ∃ secs, secs < twoPow 64 ∧ d = .ofSecs secs

theorem Duration.whole_ofSecs {secs : Nat} (h : secs < twoPow 64) : (ofSecs secs).Whole :=
  ⟨secs, h, rfl⟩

/-- The settings of a policy are in their ranges. -/
structure Policy.InRange (p : Policy) : Prop where
  required : p.required < twoPow 64
  pollInterval : p.pollInterval.Whole
  deadline : p.deadline.Whole

structure EthereumConfig.InRange (c : EthereumConfig) : Prop where
  policy : c.policy.InRange
  attempted : 0 < c.verifyAttempts
  attempts : c.verifyAttempts < twoPow 32
  retryPause : c.retryPause.Whole

structure DashConfig.InRange (c : DashConfig) : Prop where
  policy : c.policy.InRange
  forwardPollInterval : c.forwardPollInterval.Whole

/-- All settings are in their ranges. -/
structure Config.InRange (c : Config) : Prop where
  rpcTimeout : c.rpcTimeout.Whole
  fetching : 0 < c.queue.prefetch
  prefetch : c.queue.prefetch < twoPow 64
  reconnectDelay : c.queue.reconnectDelay.Whole
  claimIdle : c.queue.claimIdle.Whole
  ethereum : ∀ e ∈ c.ethereum, e.InRange
  dash : ∀ d ∈ c.dash, d.InRange
  bitcoinCash : ∀ b ∈ c.bitcoinCash, b.policy.InRange

/-! ## Numbers -/

section

variable {bits : Nat} {cs : List Char} {n : Nat}

theorem Text.naturalFrom_lt {m : Nat} (h : naturalFrom bits m cs = .ok n)
    (start : m < twoPow bits) : n < twoPow bits := by
  induction cs generalizing m with
  | nil =>
      obtain rfl := Except.ok.inj h
      exact start
  | cons c cs ih =>
      unfold naturalFrom at h
      split at h
      next => cases h
      next =>
        split at h
        next small => exact ih h small
        next => cases h

theorem Text.natural?_lt (h : natural? bits cs = .ok n) : n < twoPow bits := by
  unfold natural? at h
  split at h
  next => cases h
  next => cases h
  next => exact naturalFrom_lt h (twoPow_pos bits)
  next => exact naturalFrom_lt h (twoPow_pos bits)

end

namespace Variables

variable {env : Variables} {name : String} {bits default n : Nat} {d : Duration}

theorem natural?_lt {read? : Option Nat} (h : env.natural? name bits = .ok read?) :
    ∀ n ∈ read?, n < twoPow bits := by
  unfold natural? at h
  split at h
  next =>
    obtain rfl := Except.ok.inj h
    nofun
  next =>
    split at h
    next m read =>
      obtain rfl := Except.ok.inj h
      rintro n hn
      obtain rfl := Option.some.inj hn
      exact Text.natural?_lt read
    next => cases h

theorem naturalD_lt (h : env.naturalD name default bits = .ok n) (fits : default < twoPow bits) :
    n < twoPow bits := by
  obtain ⟨read?, read, h⟩ := of_bind h
  obtain rfl := Except.ok.inj h
  cases read? with
  | none => exact fits
  | some m => exact natural?_lt read m rfl

theorem whole_of_secsD (h : env.secsD name default = .ok d) (fits : default < twoPow 64) :
    d.Whole := by
  obtain ⟨secs, read, h⟩ := of_bind h
  obtain rfl := Except.ok.inj h
  exact ⟨secs, naturalD_lt read fits, rfl⟩

end Variables

/-! ## Sections -/

section

variable {env : Variables} {environment : Environment}

/-- What is set replaces what is in its range by what is as well. -/
theorem Policy.InRange.overridden {p q : Policy} {chain : String} (own : p.InRange)
    (h : p.overridden env chain = .ok q) : q.InRange := by
  obtain ⟨required?, hrequired, h⟩ := of_bind h
  obtain ⟨poll?, hpoll, h⟩ := of_bind h
  obtain ⟨deadline?, hdeadline, h⟩ := of_bind h
  obtain rfl := Except.ok.inj h
  have replaced {secs? : Option Nat} {d : Duration} (read : ∀ n ∈ secs?, n < twoPow 64)
      (whole : d.Whole) : ((secs?.map Duration.ofSecs).getD d).Whole := by
    cases secs? with
    | none => exact whole
    | some secs => exact Duration.whole_ofSecs (read secs rfl)
  refine ⟨?_, replaced (Variables.natural?_lt hpoll) own.pollInterval,
    replaced (Variables.natural?_lt hdeadline) own.deadline⟩
  cases required? with
  | none => exact own.required
  | some required => exact Variables.natural?_lt hrequired required rfl

theorem Policy.inRange_ethereum (environment : Environment) : (ethereum environment).InRange where
  required := by cases environment <;> decide
  pollInterval := Duration.whole_ofSecs (by decide)
  deadline := Duration.whole_ofSecs (by decide)

theorem Policy.inRange_dash (environment : Environment) : (dash environment).InRange where
  required := by cases environment <;> decide
  pollInterval := Duration.whole_ofSecs (by decide)
  deadline := Duration.whole_ofSecs (by decide)

theorem Policy.inRange_bitcoinCash (environment : Environment) :
    (bitcoinCash environment).InRange where
  required := by cases environment <;> decide
  pollInterval := by cases environment <;> exact Duration.whole_ofSecs (by decide)
  deadline := Duration.whole_ofSecs (by decide)

/-- The attempts are checked later. -/
theorem EthereumConfig.inRange_of_ofVariables {c : EthereumConfig}
    (h : ofVariables env environment = .ok (some c)) (attempted : 0 < c.verifyAttempts) :
    c.InRange := by
  unfold ofVariables at h
  split at h
  next => cases h
  next =>
    obtain ⟨contract, -, h⟩ := of_bind h
    obtain ⟨token, -, h⟩ := of_bind h
    obtain ⟨policy, hpolicy, h⟩ := of_bind h
    obtain ⟨attempts, hattempts, h⟩ := of_bind h
    obtain ⟨pause, hpause, h⟩ := of_bind h
    obtain rfl := Option.some.inj (Except.ok.inj h)
    exact ⟨(Policy.inRange_ethereum environment).overridden hpolicy, attempted,
      Variables.naturalD_lt hattempts (by decide), Variables.whole_of_secsD hpause (by decide)⟩

theorem DashConfig.inRange_of_ofVariables {c : DashConfig}
    (h : ofVariables env environment = .ok (some c)) : c.InRange := by
  unfold ofVariables at h
  split at h
  next => cases h
  next =>
    obtain ⟨policy, hpolicy, h⟩ := of_bind h
    obtain ⟨poll, hpoll, h⟩ := of_bind h
    obtain rfl := Option.some.inj (Except.ok.inj h)
    exact ⟨(Policy.inRange_dash environment).overridden hpolicy,
      Variables.whole_of_secsD hpoll (by decide)⟩

theorem BitcoinCashConfig.inRange_of_ofVariables {c : BitcoinCashConfig}
    (h : ofVariables env environment = .ok (some c)) : c.policy.InRange := by
  unfold ofVariables at h
  split at h
  next => cases h
  next =>
    obtain ⟨deposit, -, h⟩ := of_bind h
    obtain ⟨strict, -, h⟩ := of_bind h
    obtain ⟨policy, hpolicy, h⟩ := of_bind h
    obtain rfl := Option.some.inj (Except.ok.inj h)
    exact (Policy.inRange_bitcoinCash environment).overridden hpolicy

/-! ## The whole -/

namespace Config

variable {c : Config}

theorem throw_bind {A B : Type} (fault : ConfigFault) (f : A → Except ConfigFault B) :
    (throw fault >>= f) = .error fault := rfl

/-- What the checks see to: a prefetch, and attempts on Ethereum. -/
theorem positive_of_validate (h : c.validate = .ok ()) :
    0 < c.queue.prefetch ∧ ∀ e ∈ c.ethereum, 0 < e.verifyAttempts := by
  unfold validate at h
  simp only [throw_bind] at h
  split at h
  next => cases h
  next =>
    split at h
    next => cases h
    next fetching =>
      refine ⟨Nat.pos_of_ne_zero fetching, fun e he => ?_⟩
      rw [Option.mem_def.1 he] at h
      dsimp only at h
      split at h
      next => cases h
      next =>
        split at h
        next => cases h
        next attempted => exact Nat.pos_of_ne_zero attempted

theorem inRange_of_ofVariables (h : ofVariables env = .ok c) : c.InRange := by
  obtain ⟨c', hread, h⟩ := of_bind h
  obtain ⟨_, hvalid, h⟩ := of_bind h
  obtain rfl := Except.ok.inj h
  obtain ⟨fetching, attempted⟩ := positive_of_validate hvalid
  obtain ⟨environment, -, h⟩ := of_bind hread
  obtain ⟨url, -, h⟩ := of_bind h
  obtain ⟨timeout, htimeout, h⟩ := of_bind h
  obtain ⟨queue, hqueue, h⟩ := of_bind h
  obtain ⟨ethereum, hethereum, h⟩ := of_bind h
  obtain ⟨dash, hdash, h⟩ := of_bind h
  obtain ⟨bitcoinCash, hbitcoinCash, h⟩ := of_bind h
  obtain rfl := Except.ok.inj h
  obtain ⟨prefetch, hprefetch, h⟩ := of_bind hqueue
  obtain ⟨reconnect, hreconnect, h⟩ := of_bind h
  obtain ⟨claimIdle, hclaimIdle, h⟩ := of_bind h
  obtain rfl := Except.ok.inj h
  refine ⟨Variables.whole_of_secsD htimeout (by decide), fetching,
    Variables.naturalD_lt hprefetch (by decide), Variables.whole_of_secsD hreconnect (by decide),
    Variables.whole_of_secsD hclaimIdle (by decide), fun e he => ?_, fun d hd => ?_, fun b hb => ?_⟩
  · obtain rfl := Option.mem_def.1 he
    exact EthereumConfig.inRange_of_ofVariables hethereum (attempted e rfl)
  · obtain rfl := Option.mem_def.1 hd
    exact DashConfig.inRange_of_ofVariables hdash
  · obtain rfl := Option.mem_def.1 hb
    exact BitcoinCashConfig.inRange_of_ofVariables hbitcoinCash

end Config

end

end Settlement
