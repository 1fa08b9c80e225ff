import Settlement.Proofs.Config.Settings

/-!
# Reading the settings

A reading in parts stops at the part that has the first fault (`faultOf?_bind`), and each reader has
the fault of its setting. So a configuration is refused with the fault of the first setting that is
not met, in the order of `Settings.all` (`Config.faultOf?_ofVariables`). What is accepted was read
part by part: a policy from the variables of its chain and the environment's own policy, and the
rest without the variables of the chain (`Config.ofVariables_settings`).
-/

namespace Settlement

open Json (of_bind)

/-! ## Faults -/

/-- The fault that a reading ends with. -/
def faultOf? {α : Type} : Except ConfigFault α → Option ConfigFault
  | .ok _ => none
  | .error fault => some fault

section

variable {α β : Type} {x : Except ConfigFault α}

theorem faultOf?_eq_some_iff {fault : ConfigFault} :
    faultOf? x = some fault ↔ x = .error fault := by
  cases x <;> simp [faultOf?]

theorem faultOf?_eq_none_iff : faultOf? x = none ↔ ∃ a, x = .ok a := by
  cases x <;> simp [faultOf?]

/-- The faults of a reading in two parts are those of the first part and those of the second. -/
theorem faultOf?_bind {f : α → Except ConfigFault β} {later : Option ConfigFault}
    (h : ∀ a, x = .ok a → faultOf? (f a) = later) :
    faultOf? (x >>= f) = (faultOf? x).or later := by
  cases x with
  | error fault => rfl
  | ok a => exact h a rfl

theorem faultOf?_pure (a : α) : faultOf? (pure a) = none := rfl

theorem throw_eq (fault : ConfigFault) : (throw fault : Except ConfigFault α) = .error fault := rfl

theorem faultOf?_map (f : α → β) : faultOf? (x >>= fun a => pure (f a)) = faultOf? x := by
  cases x <;> rfl

end

namespace Settings

/-- The fault of the first setting that has one. -/
def firstFault? (env : Variables) (settings : List Setting) : Option ConfigFault :=
  settings.findSome? (Setting.fault? env)

variable {env : Variables}

theorem firstFault?_nil : firstFault? env [] = none := rfl

theorem firstFault?_cons (s : Setting) (settings : List Setting) :
    firstFault? env (s :: settings) = (s.fault? env).or (firstFault? env settings) := by
  rw [firstFault?, List.findSome?_cons]
  cases s.fault? env <;> rfl

theorem firstFault?_append (settings later : List Setting) :
    firstFault? env (settings ++ later) =
      (firstFault? env settings).or (firstFault? env later) :=
  List.findSome?_append

end Settings

/-! ## Readers -/

namespace Variables

open Settings

variable {env : Variables} {name : String}

theorem faultOf?_natural? (bits : Nat) :
    faultOf? (env.natural? name bits) = (⟨name, .natural bits, false⟩ : Setting).fault? env := by
  cases htext : env.get? name with
  | none =>
      simp only [natural?, Setting.fault?, htext]
      rfl
  | some text =>
      simp only [natural?, Setting.fault?, htext, Demand.fault?]
      cases Text.natural? bits text.toList <;> rfl

theorem faultOf?_naturalD (default bits : Nat) :
    faultOf? (env.naturalD name default bits) =
      (⟨name, .natural bits, false⟩ : Setting).fault? env :=
  (faultOf?_map _).trans (faultOf?_natural? bits)

theorem faultOf?_secsD (default : Nat) :
    faultOf? (env.secsD name default) = (⟨name, .natural 64, false⟩ : Setting).fault? env :=
  (faultOf?_map _).trans (faultOf?_naturalD default 64)

theorem faultOf?_required :
    faultOf? (env.required name) = (⟨name, .anything, true⟩ : Setting).fault? env := by
  rw [required, Setting.fault?]
  cases env.get? name <;> rfl

theorem faultOf?_flagD (default : Bool) :
    faultOf? (env.flagD name default) = (⟨name, .flag, false⟩ : Setting).fault? env := by
  cases htext : env.get? name with
  | none =>
      simp only [flagD, Setting.fault?, htext]
      rfl
  | some text =>
      simp only [flagD, Setting.fault?, htext, Demand.fault?]
      by_cases yes : text = "true"
      · simp [yes, faultOf?]
      · by_cases no : text = "false" <;> simp [yes, no, faultOf?]

theorem faultOf?_address :
    faultOf? (env.address name) = (⟨name, .address, true⟩ : Setting).fault? env := by
  cases htext : env.get? name with
  | none =>
      simp only [address, required, Setting.fault?, htext]
      rfl
  | some text =>
      simp only [address, required, Setting.fault?, htext, Demand.fault?, bind, Except.bind]
      cases Address.ofText? text <;> rfl

theorem faultOf?_environment :
    faultOf? (Environment.ofText? (env.getD "ENVIRONMENT" "development")) =
      (⟨"ENVIRONMENT", .environment, false⟩ : Setting).fault? env := by
  cases htext : env.get? "ENVIRONMENT" with
  | none =>
      simp only [getD, Setting.fault?, htext]
      decide +kernel
  | some text =>
      simp only [getD, Setting.fault?, htext, Demand.fault?, Option.getD_some]
      cases Environment.ofText? text <;> rfl

/-- A variable of any text is not read for its faults. -/
theorem fault?_anything : (⟨name, .anything, false⟩ : Setting).fault? env = none := by
  rw [Setting.fault?]
  cases env.get? name <;> rfl

end Variables

/-! ## Sections -/

section

variable {env : Variables} {environment : Environment}

open Settings Variables

theorem Policy.faultOf?_overridden (p : Policy) (chain : String) :
    faultOf? (p.overridden env chain) = firstFault? env (Settings.policy chain) := by
  simp only [overridden, Settings.policy, firstFault?_cons, firstFault?_nil, Option.or_none]
  rw [faultOf?_bind fun _ _ => faultOf?_bind fun _ _ => faultOf?_map _, faultOf?_natural?,
    faultOf?_natural?, faultOf?_natural?]

theorem QueueConfig.faultOf?_ofVariables :
    faultOf? (ofVariables env) = firstFault? env Settings.queue := by
  simp only [ofVariables, Settings.queue, firstFault?_cons, firstFault?_nil,
    fault?_anything, Option.none_or, Option.or_none]
  rw [faultOf?_bind fun _ _ => faultOf?_bind fun _ _ => faultOf?_map _, faultOf?_naturalD,
    faultOf?_secsD, faultOf?_secsD]

theorem EthereumConfig.faultOf?_ofVariables :
    faultOf? (ofVariables env environment) =
      firstFault? env (whenEnabled env ofChain .ethereum) := by
  cases hurl : env.get? "ETH_RPC_URL" with
  | none =>
      rw [whenEnabled_of_none .ethereum hurl]
      simp only [ofVariables, hurl]
      rfl
  | some url =>
      rw [whenEnabled_of_some .ethereum hurl]
      simp only [ofVariables, hurl, ofChain, firstFault?_append, firstFault?_cons, firstFault?_nil,
        fault?_anything, Option.none_or, Option.or_none, Option.or_assoc]
      rw [faultOf?_bind fun _ _ => faultOf?_bind fun _ _ => faultOf?_bind fun _ _ =>
        faultOf?_bind fun _ _ => faultOf?_map _, faultOf?_address, faultOf?_address,
        Policy.faultOf?_overridden, faultOf?_naturalD, faultOf?_secsD]

theorem DashConfig.faultOf?_ofVariables :
    faultOf? (ofVariables env environment) = firstFault? env (whenEnabled env ofChain .dash) := by
  cases htoken : env.get? "CHAINRIDER_TOKEN" with
  | none =>
      rw [whenEnabled_of_none .dash htoken]
      simp only [ofVariables, htoken]
      rfl
  | some token =>
      rw [whenEnabled_of_some .dash htoken]
      simp only [ofVariables, htoken, ofChain, firstFault?_append, firstFault?_cons, firstFault?_nil,
        fault?_anything, Option.none_or, Option.or_none]
      rw [faultOf?_bind fun _ _ => faultOf?_map _, Policy.faultOf?_overridden, faultOf?_secsD]

theorem BitcoinCashConfig.faultOf?_ofVariables :
    faultOf? (ofVariables env environment) =
      firstFault? env (whenEnabled env ofChain .bitcoinCash) := by
  cases hurl : env.get? "BCH_RPC_URL" with
  | none =>
      rw [whenEnabled_of_none .bitcoinCash hurl]
      simp only [ofVariables, hurl]
      rfl
  | some url =>
      rw [whenEnabled_of_some .bitcoinCash hurl]
      simp only [ofVariables, hurl, ofChain, firstFault?_append, firstFault?_cons, firstFault?_nil,
        fault?_anything, Option.none_or, Option.or_none, Option.or_assoc]
      rw [faultOf?_bind fun _ _ => faultOf?_bind fun _ _ => faultOf?_map _, faultOf?_required,
        faultOf?_flagD, Policy.faultOf?_overridden]

theorem Config.faultOf?_read :
    faultOf? (read env) =
      firstFault? env (Settings.general ++ chains.flatMap (whenEnabled env ofChain)) := by
  simp only [read, Settings.general, chains, List.flatMap_cons, List.flatMap_nil, List.append_nil,
    firstFault?_append, firstFault?_cons, firstFault?_nil, Option.or_none, Option.or_assoc]
  rw [← faultOf?_environment]
  refine faultOf?_bind fun environment _ => ?_
  rw [faultOf?_bind fun _ _ => faultOf?_bind fun _ _ => faultOf?_bind fun _ _ =>
    faultOf?_bind fun _ _ => faultOf?_bind fun _ _ => faultOf?_map _, faultOf?_required,
    faultOf?_secsD, QueueConfig.faultOf?_ofVariables, EthereumConfig.faultOf?_ofVariables,
    DashConfig.faultOf?_ofVariables, BitcoinCashConfig.faultOf?_ofVariables]

end

/-! ## Checks -/

/-- What a check finds that holds or does not. -/
def faultUnless (holds : Prop) [Decidable holds] (fault : ConfigFault) : Option ConfigFault :=
  if holds then none else some fault

theorem faultOf?_ite {p : Prop} [Decidable p] (fault : ConfigFault)
    (x : Except ConfigFault Unit) :
    faultOf? (if p then .error fault else x) = (faultUnless (¬p) fault).or (faultOf? x) := by
  by_cases h : p <;> simp [h, faultUnless, faultOf?]

namespace Config

/-- The checks on the section of a chain. -/
def chainRefused (c : Config) : Blockchain → Option ConfigFault
  | .ethereum =>
    c.ethereum.elim none fun e =>
      (faultUnless (Text.startsWith "http" e.rpcUrl = true) (.httpScheme "ETH_RPC_URL")).or
        (faultUnless (e.verifyAttempts ≠ 0) .noAttempts)
  | .dash =>
    c.dash.elim none fun d =>
      faultUnless (Text.startsWith "http" d.apiUrl = true) (.httpScheme "DASH_API_URL")
  | .bitcoinCash =>
    c.bitcoinCash.elim none fun b =>
      faultUnless (Text.startsWith "http" b.rpcUrl = true) (.httpScheme "BCH_RPC_URL")

theorem faultOf?_validate (c : Config) :
    faultOf? c.validate =
      (faultUnless (Text.startsWith "redis" c.queue.redisUrl = true) .redisScheme).or
        ((faultUnless (c.queue.prefetch ≠ 0) .noPrefetch).or
          ((c.chainRefused .ethereum).or
            ((c.chainRefused .dash).or (c.chainRefused .bitcoinCash)))) := by
  unfold validate
  simp only [throw_bind]
  simp only [throw_eq]
  cases hethereum : c.ethereum <;> cases hdash : c.dash <;> cases hbitcoinCash : c.bitcoinCash <;>
    simp [chainRefused, hethereum, hdash, hbitcoinCash, faultOf?_ite, faultOf?_pure,
      Option.or_assoc]

end Config

/-! ## What was read -/

/-- The configuration holds what the readers of its parts gave. -/
structure Config.ReadFrom (env : Variables) (c : Config) : Prop where
  environment : Environment.ofText? (env.getD "ENVIRONMENT" "development") = .ok c.environment
  databaseUrl : env.required "DATABASE_URL" = .ok c.databaseUrl
  rpcTimeout : env.secsD "RPC_TIMEOUT_SECS" 30 = .ok c.rpcTimeout
  queue : QueueConfig.ofVariables env = .ok c.queue
  ethereum : EthereumConfig.ofVariables env c.environment = .ok c.ethereum
  dash : DashConfig.ofVariables env c.environment = .ok c.dash
  bitcoinCash : BitcoinCashConfig.ofVariables env c.environment = .ok c.bitcoinCash

section

variable {env : Variables} {environment : Environment} {c : Config}

open Settings

theorem Config.readFrom_of_read (h : read env = .ok c) : c.ReadFrom env := by
  obtain ⟨environment, henvironment, h⟩ := of_bind h
  obtain ⟨url, hurl, h⟩ := of_bind h
  obtain ⟨timeout, htimeout, h⟩ := of_bind h
  obtain ⟨queue, hqueue, h⟩ := of_bind h
  obtain ⟨ethereum, hethereum, h⟩ := of_bind h
  obtain ⟨dash, hdash, h⟩ := of_bind h
  obtain ⟨bitcoinCash, hbitcoinCash, h⟩ := of_bind h
  obtain rfl := Except.ok.inj h
  exact ⟨henvironment, hurl, htimeout, hqueue, hethereum, hdash, hbitcoinCash⟩

/-- The consumer has the name that is set, else the first one that is not blank of the host's
variable and of its file. -/
theorem QueueConfig.consumerOn_of_ofVariables {q : QueueConfig}
    (h : QueueConfig.ofVariables env = .ok q) (hostFile : Option String) :
    q.consumerOn hostFile =
      ((env.get? "QUEUE_CONSUMER").or (hostName? [env.get? "HOSTNAME", hostFile])).getD
        "pay-confirm" := by
  obtain ⟨prefetch, -, h⟩ := of_bind h
  obtain ⟨reconnectDelay, -, h⟩ := of_bind h
  obtain ⟨claimIdle, -, h⟩ := of_bind h
  obtain rfl := Except.ok.inj h
  have names : hostName? [env.get? "HOSTNAME", hostFile] =
      (hostName? [env.get? "HOSTNAME"]).or (hostName? [hostFile]) := by
    rw [hostName?, hostName?, hostName?, ← List.find?_append, ← List.filterMap_append]
    rfl
  rw [names, ← Option.or_assoc]
  rfl

theorem EthereumConfig.of_ofVariables {e? : Option EthereumConfig}
    (h : ofVariables env environment = .ok e?) :
    e? = none ∧ env.get? "ETH_RPC_URL" = none ∨
      ∃ e, e? = some e ∧ env.get? "ETH_RPC_URL" = some e.rpcUrl ∧
        (Policy.ethereum environment).overridden env "ETH" = .ok e.policy ∧
        env.naturalD "ETH_VERIFY_ATTEMPTS" 3 32 = .ok e.verifyAttempts := by
  unfold ofVariables at h
  split at h
  next hurl => exact Or.inl ⟨(Except.ok.inj h).symm, hurl⟩
  next url hurl =>
    obtain ⟨contract, -, h⟩ := of_bind h
    obtain ⟨token, -, h⟩ := of_bind h
    obtain ⟨policy, hpolicy, h⟩ := of_bind h
    obtain ⟨attempts, hattempts, h⟩ := of_bind h
    obtain ⟨pause, -, h⟩ := of_bind h
    exact Or.inr ⟨_, (Except.ok.inj h).symm, hurl, hpolicy, hattempts⟩

theorem DashConfig.of_ofVariables {d? : Option DashConfig}
    (h : ofVariables env environment = .ok d?) :
    d? = none ∧ env.get? "CHAINRIDER_TOKEN" = none ∨
      ∃ d, d? = some d ∧ env.get? "CHAINRIDER_TOKEN" = some d.token ∧
        (Policy.dash environment).overridden env "DASH" = .ok d.policy ∧
        d.apiUrl = env.getD "DASH_API_URL" (defaultUrl environment) := by
  unfold ofVariables at h
  split at h
  next htoken => exact Or.inl ⟨(Except.ok.inj h).symm, htoken⟩
  next token htoken =>
    obtain ⟨policy, hpolicy, h⟩ := of_bind h
    obtain ⟨poll, -, h⟩ := of_bind h
    exact Or.inr ⟨_, (Except.ok.inj h).symm, htoken, hpolicy, rfl⟩

theorem BitcoinCashConfig.of_ofVariables {b? : Option BitcoinCashConfig}
    (h : ofVariables env environment = .ok b?) :
    b? = none ∧ env.get? "BCH_RPC_URL" = none ∨
      ∃ b, b? = some b ∧ env.get? "BCH_RPC_URL" = some b.rpcUrl ∧
        (Policy.bitcoinCash environment).overridden env "BCH" = .ok b.policy := by
  unfold ofVariables at h
  split at h
  next hurl => exact Or.inl ⟨(Except.ok.inj h).symm, hurl⟩
  next url hurl =>
    obtain ⟨deposit, -, h⟩ := of_bind h
    obtain ⟨strict, -, h⟩ := of_bind h
    obtain ⟨policy, hpolicy, h⟩ := of_bind h
    exact Or.inr ⟨_, (Except.ok.inj h).symm, hurl, hpolicy⟩

/-! ## The checks in order -/

theorem Setting.fault?_starts {name start default : String} (fault : ConfigFault)
    (sound : Text.startsWith start default = true) :
    (⟨name, .starts start fault, false⟩ : Setting).fault? env =
      faultUnless (Text.startsWith start (env.getD name default) = true) fault := by
  cases htext : env.get? name with
  | none =>
      simp only [Setting.fault?, htext, Variables.getD, Option.getD_none]
      rw [faultUnless, if_pos sound]
      rfl
  | some text => simp only [Setting.fault?, htext, Variables.getD, Option.getD_some,
      Demand.fault?, faultUnless]

theorem Setting.fault?_positive {name : String} {default bits n : Nat} (fault : ConfigFault)
    (h : env.naturalD name default bits = .ok n) (sound : default ≠ 0) :
    (⟨name, .positive bits fault, false⟩ : Setting).fault? env = faultUnless (n ≠ 0) fault := by
  obtain ⟨read?, hread, h⟩ := of_bind h
  obtain rfl := Except.ok.inj h
  unfold Variables.natural? at hread
  cases htext : env.get? name with
  | none =>
      rw [htext] at hread
      obtain rfl := Except.ok.inj hread
      simp only [Setting.fault?, htext, Option.getD_none, faultUnless, if_pos sound]
      rfl
  | some text =>
      simp only [htext] at hread
      simp only [Setting.fault?, htext, Demand.fault?, faultUnless]
      cases hn : Text.natural? bits text.toList with
      | error cause =>
          rw [hn] at hread
          cases hread
      | ok n =>
          rw [hn] at hread
          obtain rfl := Except.ok.inj hread
          by_cases hzero : n = 0 <;> simp [hzero]

theorem DashConfig.startsWith_defaultUrl (environment : Environment) :
    Text.startsWith "http" (defaultUrl environment) = true := by
  cases environment <;> decide +kernel

/-- The checks on the section of a chain look at what was read of its variables. -/
theorem Config.ReadFrom.firstFault?_checks (source : c.ReadFrom env) (chain : Blockchain) :
    firstFault? env (whenEnabled env checks chain) = c.chainRefused chain := by
  cases chain with
  | ethereum =>
      rcases EthereumConfig.of_ofVariables source.ethereum with
        ⟨hnone, hurl⟩ | ⟨e, hsome, hurl, -, hattempts⟩
      · rw [whenEnabled_of_none .ethereum hurl, chainRefused, hnone]
        rfl
      · rw [whenEnabled_of_some .ethereum hurl]
        simp only [checks, chainRefused, hsome, Option.elim_some, firstFault?_cons, firstFault?_nil,
          Option.or_none]
        rw [Setting.fault?_positive _ hattempts (by decide)]
        simp only [Setting.fault?, hurl, Demand.fault?, faultUnless]
  | dash =>
      rcases DashConfig.of_ofVariables source.dash with
        ⟨hnone, htoken⟩ | ⟨d, hsome, htoken, -, hurl⟩
      · rw [whenEnabled_of_none .dash htoken, chainRefused, hnone]
        rfl
      · rw [whenEnabled_of_some .dash htoken]
        simp only [checks, chainRefused, hsome, Option.elim_some, firstFault?_cons, firstFault?_nil,
          Option.or_none]
        rw [hurl, Setting.fault?_starts _ (DashConfig.startsWith_defaultUrl c.environment)]
  | bitcoinCash =>
      rcases BitcoinCashConfig.of_ofVariables source.bitcoinCash with
        ⟨hnone, hurl⟩ | ⟨b, hsome, hurl, -⟩
      · rw [whenEnabled_of_none .bitcoinCash hurl, chainRefused, hnone]
        rfl
      · rw [whenEnabled_of_some .bitcoinCash hurl]
        simp only [checks, chainRefused, hsome, Option.elim_some, firstFault?_cons, firstFault?_nil,
          Option.or_none]
        simp only [Setting.fault?, hurl, Demand.fault?, faultUnless]

theorem Config.ReadFrom.firstFault?_generalChecks (source : c.ReadFrom env) :
    firstFault? env generalChecks =
      (faultUnless (Text.startsWith "redis" c.queue.redisUrl = true) .redisScheme).or
        (faultUnless (c.queue.prefetch ≠ 0) .noPrefetch) := by
  obtain ⟨prefetch, hprefetch, h⟩ := of_bind source.queue
  obtain ⟨reconnect, -, h⟩ := of_bind h
  obtain ⟨claimIdle, -, h⟩ := of_bind h
  obtain h := Except.ok.inj h
  simp only [generalChecks, firstFault?_cons, firstFault?_nil, Option.or_none, ← h]
  rw [Setting.fault?_starts _ (by decide +kernel :
    Text.startsWith "redis" "redis://localhost:6379" = true),
    Setting.fault?_positive _ hprefetch (by decide)]

theorem Config.faultOf?_ofVariables :
    faultOf? (ofVariables env) = firstFault? env (Settings.all env) := by
  rw [Settings.all, firstFault?_append, ← faultOf?_read]
  refine faultOf?_bind fun c hread => ?_
  have source := readFrom_of_read hread
  rw [faultOf?_map, faultOf?_validate]
  simp only [chains, List.flatMap_cons, List.flatMap_nil, List.append_nil, firstFault?_append,
    source.firstFault?_generalChecks, source.firstFault?_checks, Option.or_assoc]

/-! ## Policies -/

/-- A value is chosen by a variable, and is `own` where it is not set. -/
def Variables.Chooses {α : Type} (env : Variables) (name : String) (own : α) (ofNumber : Nat → α)
    (a : α) : Prop :=
  match env.get? name with
  | some text => ∃ n, Text.Denotes 64 text.toList n ∧ a = ofNumber n
  | none => a = own

/-- Each part of the policy is chosen by its variable, whatever the others are. -/
structure Policy.ChosenBy (own : Policy) (env : Variables) (chain : String) (p : Policy) :
    Prop where
  required : env.Chooses (chain ++ "_CONFIRMATIONS") own.required id p.required
  pollInterval : env.Chooses (chain ++ "_POLL_SECS") own.pollInterval .ofSecs p.pollInterval
  deadline : env.Chooses (chain ++ "_DEADLINE_SECS") own.deadline .ofSecs p.deadline

theorem Variables.chooses_of_natural? {α : Type} {name : String} {read? : Option Nat}
    (h : env.natural? name = .ok read?) (own : α) (ofNumber : Nat → α) :
    env.Chooses name own ofNumber ((read?.map ofNumber).getD own) := by
  unfold natural? at h
  unfold Chooses
  cases htext : env.get? name with
  | none =>
      rw [htext] at h
      obtain rfl := Except.ok.inj h
      rfl
  | some text =>
      simp only [htext] at h ⊢
      cases hn : Text.natural? 64 text.toList with
      | error cause =>
          rw [hn] at h
          cases h
      | ok n =>
          rw [hn] at h
          obtain rfl := Except.ok.inj h
          exact ⟨n, Text.natural?_eq_ok_iff.1 hn, rfl⟩

theorem Policy.chosenBy_of_overridden {own p : Policy} {chain : String}
    (h : own.overridden env chain = .ok p) : own.ChosenBy env chain p := by
  obtain ⟨required?, hrequired, h⟩ := of_bind h
  obtain ⟨poll?, hpoll, h⟩ := of_bind h
  obtain ⟨deadline?, hdeadline, h⟩ := of_bind h
  obtain rfl := Except.ok.inj h
  refine ⟨?_, Variables.chooses_of_natural? hpoll _ _,
    Variables.chooses_of_natural? hdeadline _ _⟩
  have required := Variables.chooses_of_natural? hrequired own.required id
  rwa [Option.map_id, id] at required

/-! ## The variables of one chain -/

/-- The variables of the settings are the same. -/
def Variables.Agree (env env' : Variables) (settings : List Setting) : Prop :=
  ∀ s ∈ settings, env.get? s.name = env'.get? s.name

/-- The variables differ in those of a chain only. -/
def Variables.AgreeButFor (chain : Blockchain) (env env' : Variables) : Prop :=
  ∀ name, name ∉ (ofChain chain).map Setting.name → env.get? name = env'.get? name

/-- The configuration without its section for a chain. -/
def Config.without (c : Config) : Blockchain → Config
  | .ethereum => { c with ethereum := none }
  | .dash => { c with dash := none }
  | .bitcoinCash => { c with bitcoinCash := none }

variable {env' : Variables}

theorem Settings.notMem_general (chain : Blockchain) :
    ∀ s ∈ Settings.general, s.name ∉ (ofChain chain).map Setting.name := by
  cases chain <;> decide +kernel

theorem Settings.notMem_ofChain {chain other : Blockchain} (h : other ≠ chain) :
    ∀ s ∈ ofChain other, s.name ∉ (ofChain chain).map Setting.name := by
  cases chain <;> cases other <;> first | exact absurd rfl h | decide +kernel

theorem Variables.natural?_congr {name : String} {bits : Nat}
    (h : env.get? name = env'.get? name) : env.natural? name bits = env'.natural? name bits := by
  rw [natural?, natural?, h]

theorem Policy.overridden_congr (p : Policy) {chain : String}
    (agree : env.Agree env' (Settings.policy chain)) :
    p.overridden env chain = p.overridden env' chain := by
  simp only [Variables.Agree, Settings.policy, List.forall_mem_cons] at agree
  obtain ⟨hrequired, hpoll, hdeadline, -⟩ := agree
  simp only [overridden, Variables.natural?_congr hrequired, Variables.natural?_congr hpoll,
    Variables.natural?_congr hdeadline]

theorem QueueConfig.ofVariables_congr (agree : env.Agree env' Settings.queue) :
    ofVariables env = ofVariables env' := by
  simp only [Variables.Agree, Settings.queue, List.forall_mem_cons] at agree
  obtain ⟨hredis, hprefetch, hgroup, hconsumer, hhost, hreconnect, hclaim, -⟩ := agree
  simp only [ofVariables, Variables.naturalD, Variables.secsD, Variables.getD, consumerName?,
    Variables.natural?, hredis, hprefetch, hgroup, hconsumer, hhost, hreconnect, hclaim]

theorem EthereumConfig.ofVariables_congr (agree : env.Agree env' (ofChain .ethereum)) :
    ofVariables env environment = ofVariables env' environment := by
  have policy : env.Agree env' (Settings.policy "ETH") := fun s h =>
    agree s (List.mem_append_left _ (List.mem_append_right _ h))
  simp only [Variables.Agree, ofChain, List.forall_mem_append, List.forall_mem_cons] at agree
  obtain ⟨⟨⟨hurl, hfallback, hcontract, htoken, -⟩, -⟩, hattempts, hpause, -⟩ := agree
  simp only [ofVariables, Variables.address, Variables.required, Variables.naturalD,
    Variables.secsD, Variables.natural?, Policy.overridden_congr _ policy, hurl, hfallback,
    hcontract, htoken, hattempts, hpause]

theorem DashConfig.ofVariables_congr (agree : env.Agree env' (ofChain .dash)) :
    ofVariables env environment = ofVariables env' environment := by
  have policy : env.Agree env' (Settings.policy "DASH") := fun s h =>
    agree s (List.mem_append_left _ (List.mem_append_right _ h))
  simp only [Variables.Agree, ofChain, List.forall_mem_append, List.forall_mem_cons] at agree
  obtain ⟨⟨⟨htoken, hurl, -⟩, -⟩, hpoll, -⟩ := agree
  simp only [ofVariables, Variables.getD, Variables.naturalD, Variables.secsD, Variables.natural?,
    Policy.overridden_congr _ policy, htoken, hurl, hpoll]

theorem BitcoinCashConfig.ofVariables_congr (agree : env.Agree env' (ofChain .bitcoinCash)) :
    ofVariables env environment = ofVariables env' environment := by
  have policy : env.Agree env' (Settings.policy "BCH") := fun s h =>
    agree s (List.mem_append_right _ h)
  simp only [Variables.Agree, ofChain, List.forall_mem_append, List.forall_mem_cons] at agree
  obtain ⟨⟨hurl, huser, hpass, hdeposit, hstrict, -⟩, -⟩ := agree
  simp only [ofVariables, Variables.required, Variables.flagD, Policy.overridden_congr _ policy,
    hurl, huser, hpass, hdeposit, hstrict]

/-- What is read of equal readings is equal. -/
theorem eq_of_read {α : Type} {x y : Except ConfigFault α} {a b : α} (hx : x = .ok a)
    (hy : y = .ok b) (h : x = y) : a = b :=
  Except.ok.inj (hx.symm.trans (h.trans hy))

theorem Config.ReadFrom.general_eq {c' : Config} (source : c.ReadFrom env)
    (source' : c'.ReadFrom env') (general : env.Agree env' Settings.general) :
    c.environment = c'.environment ∧ c.databaseUrl = c'.databaseUrl ∧
      c.rpcTimeout = c'.rpcTimeout ∧ c.queue = c'.queue := by
  have queue := QueueConfig.ofVariables_congr fun s h => general s (List.mem_append_right _ h)
  simp only [Variables.Agree, Settings.general, List.forall_mem_append, List.forall_mem_cons]
    at general
  obtain ⟨⟨henvironment, hurl, htimeout, -⟩, -⟩ := general
  refine ⟨eq_of_read source.environment source'.environment ?_,
    eq_of_read source.databaseUrl source'.databaseUrl ?_,
    eq_of_read source.rpcTimeout source'.rpcTimeout ?_,
    eq_of_read source.queue source'.queue queue⟩
  · rw [Variables.getD, henvironment, ← Variables.getD]
  · rw [Variables.required, hurl, ← Variables.required]
  · rw [Variables.secsD, Variables.naturalD, Variables.natural?_congr htimeout,
      ← Variables.naturalD, ← Variables.secsD]

/-- What was read of variables that agree but for those of a chain is the same but for its
section. -/
theorem Config.ReadFrom.without_eq {c' : Config} {chain : Blockchain} (source : c.ReadFrom env)
    (source' : c'.ReadFrom env') (agree : env.AgreeButFor chain env') :
    c.without chain = c'.without chain := by
  have other : ∀ other ≠ chain, env.Agree env' (ofChain other) := fun other hne s h =>
    agree s.name (Settings.notMem_ofChain hne s h)
  obtain ⟨environment, databaseUrl, rpcTimeout, queue⟩ :=
    source.general_eq source' fun s h => agree s.name (Settings.notMem_general chain s h)
  have ethereum (hne : .ethereum ≠ chain) : c.ethereum = c'.ethereum := by
    refine eq_of_read source.ethereum source'.ethereum ?_
    rw [EthereumConfig.ofVariables_congr (other _ hne), environment]
  have dash (hne : .dash ≠ chain) : c.dash = c'.dash := by
    refine eq_of_read source.dash source'.dash ?_
    rw [DashConfig.ofVariables_congr (other _ hne), environment]
  have bitcoinCash (hne : .bitcoinCash ≠ chain) : c.bitcoinCash = c'.bitcoinCash := by
    refine eq_of_read source.bitcoinCash source'.bitcoinCash ?_
    rw [BitcoinCashConfig.ofVariables_congr (other _ hne), environment]
  cases chain with
  | ethereum =>
      simp only [without, mk.injEq, true_and]
      exact ⟨environment, databaseUrl, rpcTimeout, queue, dash nofun, bitcoinCash nofun⟩
  | dash =>
      simp only [without, mk.injEq, true_and]
      exact ⟨environment, databaseUrl, rpcTimeout, queue, ethereum nofun, bitcoinCash nofun⟩
  | bitcoinCash =>
      simp only [without, mk.injEq, and_true]
      exact ⟨environment, databaseUrl, rpcTimeout, queue, ethereum nofun, dash nofun⟩

end

namespace Config

variable {env : Variables} {c : Config}

theorem readFrom_of_ofVariables (h : ofVariables env = .ok c) : c.ReadFrom env := by
  obtain ⟨c', hread, h⟩ := of_bind h
  obtain ⟨_, -, h⟩ := of_bind h
  obtain rfl := Except.ok.inj h
  exact readFrom_of_read hread

/-- The section of a chain, as far as its policy goes: it is there if the chain is enabled, and the
policy is the chain's own one with the parts that are chosen. -/
structure Sections (env : Variables) (c : Config) : Prop where
  environment : Environment.ofText? (env.getD "ENVIRONMENT" "development") = .ok c.environment
  ethereum_isSome : c.ethereum.isSome = Settings.isEnabled env .ethereum
  ethereum : ∀ e ∈ c.ethereum, (Policy.ethereum c.environment).ChosenBy env "ETH" e.policy
  dash_isSome : c.dash.isSome = Settings.isEnabled env .dash
  dash : ∀ d ∈ c.dash, (Policy.dash c.environment).ChosenBy env "DASH" d.policy
  bitcoinCash_isSome : c.bitcoinCash.isSome = Settings.isEnabled env .bitcoinCash
  bitcoinCash : ∀ b ∈ c.bitcoinCash,
    (Policy.bitcoinCash c.environment).ChosenBy env "BCH" b.policy

theorem ReadFrom.sections (source : c.ReadFrom env) : Sections env c := by
  have ethereum : c.ethereum.isSome = Settings.isEnabled env .ethereum ∧
      ∀ e ∈ c.ethereum, (Policy.ethereum c.environment).ChosenBy env "ETH" e.policy := by
    rcases EthereumConfig.of_ofVariables source.ethereum with
      ⟨hnone, hurl⟩ | ⟨e, hsome, hurl, hpolicy, -⟩
    · simp [Settings.isEnabled, Settings.enabling, hnone, hurl]
    · simp [Settings.isEnabled, Settings.enabling, hsome, hurl,
        Policy.chosenBy_of_overridden hpolicy]
  have dash : c.dash.isSome = Settings.isEnabled env .dash ∧
      ∀ d ∈ c.dash, (Policy.dash c.environment).ChosenBy env "DASH" d.policy := by
    rcases DashConfig.of_ofVariables source.dash with
      ⟨hnone, htoken⟩ | ⟨d, hsome, htoken, hpolicy, -⟩
    · simp [Settings.isEnabled, Settings.enabling, hnone, htoken]
    · simp [Settings.isEnabled, Settings.enabling, hsome, htoken,
        Policy.chosenBy_of_overridden hpolicy]
  have bitcoinCash : c.bitcoinCash.isSome = Settings.isEnabled env .bitcoinCash ∧
      ∀ b ∈ c.bitcoinCash, (Policy.bitcoinCash c.environment).ChosenBy env "BCH" b.policy := by
    rcases BitcoinCashConfig.of_ofVariables source.bitcoinCash with
      ⟨hnone, hurl⟩ | ⟨b, hsome, hurl, hpolicy⟩
    · simp [Settings.isEnabled, Settings.enabling, hnone, hurl]
    · simp [Settings.isEnabled, Settings.enabling, hsome, hurl,
        Policy.chosenBy_of_overridden hpolicy]
  exact ⟨source.environment, ethereum.1, ethereum.2, dash.1, dash.2, bitcoinCash.1, bitcoinCash.2⟩

/-- Variables are accepted exactly if all settings are met; otherwise the fault is that of the first
one that is not. Each part of a policy is what its own variable says, or what the environment does.
Nothing but the section of a chain depends on the variables of the chain. -/
theorem ofVariables_settings (env : Variables) :
    ((∃ c, ofVariables env = .ok c) ↔ ∀ s ∈ Settings.all env, s.Met env) ∧
    (∀ fault, ofVariables env = .error fault ↔
      ∃ before s after, Settings.all env = before ++ s :: after ∧
        (∀ t ∈ before, t.Met env) ∧ s.fault? env = some fault) ∧
    (∀ c, ofVariables env = .ok c → Sections env c) ∧
    ∀ env' chain c c', env.AgreeButFor chain env' → ofVariables env = .ok c →
      ofVariables env' = .ok c' → c.without chain = c'.without chain := by
  have faults : faultOf? (ofVariables env) = Settings.firstFault? env (Settings.all env) :=
    faultOf?_ofVariables
  refine ⟨?_, fun fault => ?_, fun c h => (readFrom_of_ofVariables h).sections,
    fun env' chain c c' agree h h' =>
      (readFrom_of_ofVariables h).without_eq (readFrom_of_ofVariables h') agree⟩
  · rw [← faultOf?_eq_none_iff, faults, Settings.firstFault?, List.findSome?_eq_none_iff]
    exact forall₂_congr fun s _ => Setting.fault?_eq_none_iff
  · rw [← faultOf?_eq_some_iff, faults, Settings.firstFault?, List.findSome?_eq_some_iff]
    constructor
    · rintro ⟨before, s, after, hall, hs, hbefore⟩
      exact ⟨before, s, after, hall, fun t ht => Setting.fault?_eq_none_iff.1 (hbefore t ht), hs⟩
    · rintro ⟨before, s, after, hall, hbefore, hs⟩
      exact ⟨before, s, after, hall, hs, fun t ht => Setting.fault?_eq_none_iff.2 (hbefore t ht)⟩

/-- A number that is too large is reported before the address that a chain misses, and that one
before a prefetch of zero, which is found by a check. -/
example :
    let env : Variables := [("DATABASE_URL", "postgres://payments"), ("BCH_RPC_URL", "http://node")]
    faultOf? (ofVariables (("QUEUE_PREFETCH", "18446744073709551616") :: env)) =
        some (.badInteger "QUEUE_PREFETCH" .tooLarge) ∧
      faultOf? (ofVariables (("QUEUE_PREFETCH", "0") :: env)) =
        some (.missing "BCH_DEPOSIT_ADDRESS") ∧
      faultOf? (ofVariables (("BCH_DEPOSIT_ADDRESS", "qd") :: ("QUEUE_PREFETCH", "0") :: env)) =
        some .noPrefetch := by
  decide +kernel

end Config

end Settlement
