import Settlement.Proofs.Config.Range
import Settlement.Proofs.Digits
import Settlement.Proofs.Hex.Spelling

/-!
# The settings, one by one

What a worker reads from its variables is a list of settings, each of one variable: those of the
worker first, then those of each chain whose first variable is set, then the checks, which look at
some of the variables again (`Settings.all`). A setting is met, or it has a fault of its own
(`Setting.fault?_eq_none_iff`), whatever the other variables are.
-/

namespace Settlement

/-! ## Whole numbers -/

namespace Text

/-- The characters are the digits of a number below `2 ^ bits`, maybe behind a plus sign. -/
def Denotes (bits : Nat) (cs : List Char) (n : Nat) : Prop :=
  ∃ ds, (cs = ds ∨ cs = '+' :: ds) ∧ ds ≠ [] ∧ (∀ c ∈ ds, c.isDigit = true) ∧
    Nat.ofDigitChars 10 ds 0 = n ∧ n < twoPow bits

variable {bits n : Nat} {cs : List Char}

/-- Digits are read as their number, if it is small enough behind what was read before them. -/
theorem naturalFrom_eq_ok_iff {m : Nat} (start : m < twoPow bits) :
    naturalFrom bits m cs = .ok n ↔
      (∀ c ∈ cs, c.isDigit = true) ∧ Nat.ofDigitChars 10 cs m = n ∧ n < twoPow bits := by
  induction cs generalizing m with
  | nil =>
      rw [naturalFrom, Except.ok.injEq, Nat.ofDigitChars_nil]
      constructor
      · rintro rfl
        exact ⟨nofun, rfl, start⟩
      · exact fun h => h.2.1
  | cons c cs ih =>
      rw [naturalFrom, List.forall_mem_cons, Nat.ofDigitChars_cons, Nat.mul_comm 10 m]
      cases hdigit : c.isDigit with
      | false => simp [digit?, hdigit]
      | true =>
          simp only [digit?, hdigit, if_true, true_and]
          split
          next small => exact ih small
          next large =>
            -- the number only grows from here
            refine iff_of_false nofun fun h => large ?_
            obtain ⟨-, rfl, fits⟩ := h
            exact Nat.lt_of_le_of_lt (le_ofDigitChars cs _) fits

theorem natural?_eq_ok_iff : natural? bits cs = .ok n ↔ Denotes bits cs n := by
  have reads : ∀ ds : List Char, ds ≠ [] → (naturalFrom bits 0 ds = .ok n ↔
      ds ≠ [] ∧ (∀ c ∈ ds, c.isDigit = true) ∧ Nat.ofDigitChars 10 ds 0 = n ∧
        n < twoPow bits) :=
    fun ds hne => (naturalFrom_eq_ok_iff (twoPow_pos bits)).trans (and_iff_right hne).symm
  unfold natural?
  split
  next =>
    refine iff_of_false nofun ?_
    rintro ⟨ds, rfl | h, hne, -⟩
    · exact hne rfl
    · cases h
  next =>
    refine iff_of_false nofun ?_
    rintro ⟨ds, rfl | h, hne, digits, -⟩
    · exact absurd (digits '+' List.mem_cons_self) (by decide)
    · exact hne (List.cons.inj h).2.symm
  next ds hplus =>
    rw [reads ds fun hnil => hplus (hnil ▸ rfl)]
    constructor
    · exact fun h => ⟨ds, Or.inr rfl, h⟩
    · rintro ⟨ds', rfl | h, rest⟩
      · exact absurd (rest.2.1 '+' List.mem_cons_self) (by decide)
      · rw [(List.cons.inj h).2]
        exact rest
  next hnil hlone hplus =>
    rw [reads cs hnil]
    constructor
    · exact fun h => ⟨cs, Or.inl rfl, h⟩
    · rintro ⟨ds, rfl | rfl, h⟩
      · exact h
      · exact (hplus ds rfl).elim

end Text

/-! ## Environments and addresses -/

namespace Environment

/-- The names of an environment, in small letters. -/
def spellings : Environment → List String
  | development => ["development", "dev"]
  | testnet => ["testnet", "test"]
  | production => ["production", "prod"]

/-- A text names an environment if it is one of its names, in any letter case. -/
theorem ofText?_eq_ok_iff {text : String} {e : Environment} :
    ofText? text = .ok e ↔ Text.toLower text ∈ e.spellings := by
  have apart : ∀ e' : Environment, Text.toLower text ∈ e'.spellings →
      (Text.toLower text ∈ e.spellings ↔ e' = e) := by
    intro e' named
    refine ⟨fun h => ?_, fun h => h ▸ named⟩
    have all : ∀ e' e : Environment, ∀ small ∈ e'.spellings, small ∈ e.spellings → e' = e := by
      intro e' e
      cases e' <;> cases e <;> decide
    exact all e' e _ named h
  unfold ofText?
  dsimp only
  split
  next h => simpa using (apart development (by simpa [spellings] using h)).symm
  next hdev =>
    split
    next h => simpa using (apart testnet (by simpa [spellings] using h)).symm
    next htest =>
      split
      next h => simpa using (apart production (by simpa [spellings] using h)).symm
      next hprod =>
        refine iff_of_false nofun ?_
        cases e <;> simp only [spellings, List.mem_cons, List.not_mem_nil, or_false] <;> assumption

end Environment

/-- A text is the address of an account if it has forty digits behind `0x`, which it may do
without, and nothing but blanks between them. -/
theorem Address.ofText?_isOk_iff {text : String} :
    (∃ a, ofText? text = .ok a) ↔
      (∀ c ∈ Hex.withoutMark text.toList, Hex.isBlank c = false →
        c ∈ "0123456789abcdefABCDEF".toList) ∧
        ((Hex.withoutMark text.toList).filter fun c => !Hex.isBlank c).length = 40 :=
  Hex.word?_isOk_iff

/-! ## Demands -/

/-- What the text of a variable has to be. -/
inductive Demand where
  | anything
  | environment
  | natural (bits : Nat)
  | flag
  | address
  /-- It starts with `start`, or else there is the fault. -/
  | starts (start : String) (fault : ConfigFault)
  /-- It is not the number zero, or else there is the fault. -/
  | positive (bits : Nat) (fault : ConfigFault)

namespace Demand

/-- The text of a variable is as it has to be. -/
def Met : Demand → String → Prop
  | anything, _ => True
  | environment, text => ∃ e, Environment.ofText? text = .ok e
  | natural bits, text => ∃ n, Text.Denotes bits text.toList n
  | flag, text => text = "true" ∨ text = "false"
  | address, text => ∃ a, Address.ofText? text = .ok a
  | starts start _, text => start.toList <+: text.toList
  | positive bits _, text => ¬Text.Denotes bits text.toList 0

/-- The fault of the text of a variable. -/
def fault? (name text : String) : Demand → Option ConfigFault
  | anything => none
  | environment =>
    match Environment.ofText? text with
    | .ok _ => none
    | .error fault => some fault
  | natural bits =>
    match Text.natural? bits text.toList with
    | .ok _ => none
    | .error cause => some (.badInteger name cause)
  | flag => if text = "true" ∨ text = "false" then none else some (.badFlag name)
  | address =>
    match Address.ofText? text with
    | .ok _ => none
    | .error cause => some (.badAddress name cause)
  | starts start fault => if Text.startsWith start text then none else some fault
  | positive bits fault => if Text.natural? bits text.toList = .ok 0 then some fault else none

theorem fault?_eq_none_iff (demand : Demand) (name text : String) :
    demand.fault? name text = none ↔ demand.Met text := by
  cases demand with
  | anything => exact iff_of_true rfl trivial
  | environment =>
      rw [fault?, Met]
      cases Environment.ofText? text <;> simp
  | natural bits =>
      simp only [fault?, Met, ← Text.natural?_eq_ok_iff]
      cases Text.natural? bits text.toList <;> simp
  | flag =>
      rw [fault?, Met]
      split
      next h => exact iff_of_true rfl h
      next h => exact iff_of_false nofun h
  | address =>
      rw [fault?, Met]
      cases Address.ofText? text <;> simp
  | starts start fault => simp [fault?, Met, Text.startsWith]
  | positive bits fault => simp [fault?, Met, ← Text.natural?_eq_ok_iff]

end Demand

/-! ## Settings -/

/-- A variable with what its text has to be, and whether it has to be set. -/
structure Setting where
  name : String
  demand : Demand
  required : Bool := false

namespace Setting

/-- The variable is as the setting wants it. -/
structure Met (s : Setting) (env : Variables) : Prop where
  present : s.required = true → (env.get? s.name).isSome = true
  text : ∀ text, env.get? s.name = some text → s.demand.Met text

/-- The fault of a variable. -/
def fault? (env : Variables) (s : Setting) : Option ConfigFault :=
  match env.get? s.name with
  | some text => s.demand.fault? s.name text
  | none => if s.required then some (.missing s.name) else none

theorem fault?_eq_none_iff {s : Setting} {env : Variables} : s.fault? env = none ↔ s.Met env := by
  unfold fault?
  cases htext : env.get? s.name with
  | some text =>
      rw [Demand.fault?_eq_none_iff]
      constructor
      · intro met
        refine ⟨fun _ => by rw [htext]; rfl, fun text' h => ?_⟩
        rw [htext] at h
        exact Option.some.inj h ▸ met
      · exact fun met => met.text text htext
  | none =>
      cases hrequired : s.required with
      | false =>
          refine iff_of_true rfl ⟨fun h => ?_, fun text h => ?_⟩
          · rw [hrequired] at h
            cases h
          · rw [htext] at h
            cases h
      | true =>
          refine iff_of_false nofun fun met => ?_
          have present := met.present hrequired
          rw [htext] at present
          cases present

end Setting

namespace Settings

/-- The settings of the queue. -/
def queue : List Setting :=
  [⟨"REDIS_URL", .anything, false⟩, ⟨"QUEUE_PREFETCH", .natural 64, false⟩,
    ⟨"QUEUE_GROUP", .anything, false⟩, ⟨"QUEUE_CONSUMER", .anything, false⟩,
    ⟨"HOSTNAME", .anything, false⟩, ⟨"QUEUE_RECONNECT_SECS", .natural 64, false⟩,
    ⟨"QUEUE_CLAIM_IDLE_SECS", .natural 64, false⟩]

/-- The settings of the worker itself. -/
def general : List Setting :=
  [⟨"ENVIRONMENT", .environment, false⟩, ⟨"DATABASE_URL", .anything, true⟩,
    ⟨"RPC_TIMEOUT_SECS", .natural 64, false⟩] ++ queue

/-- The settings of a policy. -/
def policy (chain : String) : List Setting :=
  [⟨chain ++ "_CONFIRMATIONS", .natural 64, false⟩, ⟨chain ++ "_POLL_SECS", .natural 64, false⟩,
    ⟨chain ++ "_DEADLINE_SECS", .natural 64, false⟩]

/-- The settings of a chain; the first one enables it. -/
def ofChain : Blockchain → List Setting
  | .ethereum =>
    [⟨"ETH_RPC_URL", .anything, false⟩, ⟨"ETH_RPC_FALLBACK", .anything, false⟩,
      ⟨"PAYMENT_CONTRACT_ADDRESS", .address, true⟩, ⟨"RTC_ADDRESS", .address, true⟩] ++
    policy "ETH" ++
    [⟨"ETH_VERIFY_ATTEMPTS", .natural 32, false⟩, ⟨"ETH_RETRY_PAUSE_SECS", .natural 64, false⟩]
  | .dash =>
    [⟨"CHAINRIDER_TOKEN", .anything, false⟩, ⟨"DASH_API_URL", .anything, false⟩] ++
    policy "DASH" ++ [⟨"DASH_FORWARD_POLL_SECS", .natural 64, false⟩]
  | .bitcoinCash =>
    [⟨"BCH_RPC_URL", .anything, false⟩, ⟨"BCH_RPC_USER", .anything, false⟩,
      ⟨"BCH_RPC_PASS", .anything, false⟩, ⟨"BCH_DEPOSIT_ADDRESS", .anything, true⟩,
      ⟨"BCH_STRICT_VALIDATION", .flag, false⟩] ++
    policy "BCH"

/-- The variable that enables a chain. -/
def enabling : Blockchain → String
  | .ethereum => "ETH_RPC_URL"
  | .dash => "CHAINRIDER_TOKEN"
  | .bitcoinCash => "BCH_RPC_URL"

/-- The chain is enabled. -/
def isEnabled (env : Variables) (chain : Blockchain) : Bool := (env.get? (enabling chain)).isSome

/-- The checks on the settings of the worker itself. -/
def generalChecks : List Setting :=
  [⟨"REDIS_URL", .starts "redis" .redisScheme, false⟩,
    ⟨"QUEUE_PREFETCH", .positive 64 .noPrefetch, false⟩]

/-- The checks on the settings of a chain. -/
def checks : Blockchain → List Setting
  | .ethereum =>
    [⟨"ETH_RPC_URL", .starts "http" (.httpScheme "ETH_RPC_URL"), false⟩,
      ⟨"ETH_VERIFY_ATTEMPTS", .positive 32 .noAttempts, false⟩]
  | .dash => [⟨"DASH_API_URL", .starts "http" (.httpScheme "DASH_API_URL"), false⟩]
  | .bitcoinCash => [⟨"BCH_RPC_URL", .starts "http" (.httpScheme "BCH_RPC_URL"), false⟩]

/-- The settings that concern a chain, if it is enabled. -/
def whenEnabled (env : Variables) (settings : Blockchain → List Setting) (chain : Blockchain) :
    List Setting :=
  if isEnabled env chain then settings chain else []

section

variable {env : Variables} {settings : Blockchain → List Setting} (chain : Blockchain)

theorem whenEnabled_of_none (h : env.get? (enabling chain) = none) :
    whenEnabled env settings chain = [] := by
  rw [whenEnabled, isEnabled, h]
  rfl

theorem whenEnabled_of_some {text : String} (h : env.get? (enabling chain) = some text) :
    whenEnabled env settings chain = settings chain := by
  rw [whenEnabled, isEnabled, h]
  rfl

end

/-- The chains in the order in which they are read. -/
def chains : List Blockchain := [.ethereum, .dash, .bitcoinCash]

/-- All settings in the order in which they are read, and then the checks. -/
def all (env : Variables) : List Setting :=
  (general ++ chains.flatMap (whenEnabled env ofChain)) ++
    (generalChecks ++ chains.flatMap (whenEnabled env checks))

end Settings

end Settlement
