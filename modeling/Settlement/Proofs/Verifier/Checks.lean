import Settlement.Proofs.Course
import Settlement.Verifier

/-!
# The course of a verification

A verification is begun with a request and goes on without it, so it has a first turn of its own.
`Passes` says which stages it may come to, with what it has asked on the way, latest first, and
`Gives` which verdicts. Whatever the chain, a verification asks nothing but checks: calls to a node
or a service, and the one for the address that a user registered.
-/

namespace Settlement

/-- A call of a worker with the reply to it. -/
abbrev Contact := Asked Call Call.Reply

namespace Contact

abbrev lookup (user : String) (number : Int) (r : Except StoreError (Option Payment)) : Contact :=
  ⟨.findPayment user number, r⟩

/-- The payment of a transaction was confirmed, or was not. -/
abbrev flip (hash : String) (r : Except StoreError Bool) : Contact := ⟨.confirmPayment hash, r⟩

abbrev grant (user : String) (amount : Decimal) (r : Except StoreError (Option Decimal)) :
    Contact :=
  ⟨.addCredits user amount, r⟩

@[simp] theorem lookup_inj {user user' : String} {number number' : Int}
    {r r' : Except StoreError (Option Payment)} :
    lookup user number r = lookup user' number' r' ↔ user = user' ∧ number = number' ∧ r = r' := by
  constructor
  · intro h
    cases h
    simp
  · rintro ⟨rfl, rfl, rfl⟩
    rfl

@[simp] theorem flip_inj {hash hash' : String} {r r' : Except StoreError Bool} :
    flip hash r = flip hash' r' ↔ hash = hash' ∧ r = r' := by
  constructor
  · intro h
    cases h
    simp
  · rintro ⟨rfl, rfl⟩
    rfl

@[simp] theorem grant_inj {name name' : String} {amount amount' : Decimal}
    {r r' : Except StoreError (Option Decimal)} :
    grant name amount r = grant name' amount' r' ↔ name = name' ∧ amount = amount' ∧ r = r' := by
  constructor
  · intro h
    cases h
    simp
  · rintro ⟨rfl, rfl, rfl⟩
    rfl

@[simp] theorem lookup_ne_flip (user : String) (number : Int)
    (r : Except StoreError (Option Payment)) (hash : String) (r' : Except StoreError Bool) :
    lookup user number r ≠ flip hash r' := nofun

@[simp] theorem lookup_ne_grant (user : String) (number : Int)
    (r : Except StoreError (Option Payment)) (name : String) (amount : Decimal)
    (r' : Except StoreError (Option Decimal)) :
    lookup user number r ≠ grant name amount r' := nofun

@[simp] theorem flip_ne_lookup (hash : String) (r : Except StoreError Bool) (user : String)
    (number : Int) (r' : Except StoreError (Option Payment)) :
    flip hash r ≠ lookup user number r' := nofun

@[simp] theorem grant_ne_lookup (name : String) (amount : Decimal)
    (r : Except StoreError (Option Decimal)) (user : String) (number : Int)
    (r' : Except StoreError (Option Payment)) :
    grant name amount r ≠ lookup user number r' := nofun

@[simp] theorem grant_ne_flip (name : String) (amount : Decimal)
    (r : Except StoreError (Option Decimal)) (hash : String) (r' : Except StoreError Bool) :
    grant name amount r ≠ flip hash r' := nofun

@[simp] theorem flip_ne_grant (hash : String) (r : Except StoreError Bool) (name : String)
    (amount : Decimal) (r' : Except StoreError (Option Decimal)) :
    flip hash r ≠ grant name amount r' := nofun

end Contact

/-- The call is one that a verification may make. -/
def Call.isCheck : Call → Bool
  | ethereum _ => true
  | dash _ => true
  | bitcoinCash _ => true
  | findAddress _ => true
  | _ => false

namespace Verifier

variable {v : Verifier} {request : Request} {payment : Payment}

/-- The verification may have come to a stage. -/
inductive Passes (v : Verifier) (request : Request) (payment : Payment) :
    List Contact → VerifierStage → Prop
  | opens {asked : List Contact} {s : VerifierStage} (now : Instant)
      (step : (v.begin request payment now).Leads asked s) : Passes v request payment asked s
  | goes {before asked : List Contact} {s s' : VerifierStage} (now : Instant)
      (passes : Passes v request payment before s)
      (step : (v.turn payment now s).Leads asked s') : Passes v request payment (asked ++ before) s'

/-- The verification may have ended with a verdict. -/
inductive Gives (v : Verifier) (request : Request) (payment : Payment) :
    List Contact → Verdict → Prop
  | atOnce {verdict : Verdict} (now : Instant)
      (ends : v.begin request payment now = .done verdict) : Gives v request payment [] verdict
  | later {asked : List Contact} {s : VerifierStage} {verdict : Verdict} (now : Instant)
      (passes : Passes v request payment asked s)
      (ends : v.turn payment now s = .done verdict) : Gives v request payment asked verdict

theorem attemptTurn_asks (c : Ethereum.Confirmer) (attempts : Nat) (retryPause : Duration)
    (hash : Hash) (expected : Ethereum.Expectation) (attempt : Nat) (s : Timed Ethereum.Stage) :
    (attemptTurn c attempts retryPause hash expected attempt s).Asks (·.isCheck) := by
  refine Turn.asks_within (Turn.asks_of_all _ fun query => rfl) ?_
  intro result
  cases result with
  | ok receipt => trivial
  | error e =>
      simp only [afterAttempt]
      split <;> trivial

theorem ethereumTurn_asks (c : Ethereum.Confirmer) (attempts : Nat) (retryPause : Duration)
    (payment : Payment) (now : Instant) (s : EthereumStage) :
    (ethereumTurn c attempts retryPause payment now s).Asks (·.isCheck) := by
  cases s with
  | addressed hash r =>
      cases r with
      | error e => trivial
      | ok registered =>
          simp only [ethereumTurn]
          split
          · trivial
          · exact attemptTurn_asks _ _ _ _ _ _ _
  | attempting hash expected attempt s => exact attemptTurn_asks _ _ _ _ _ _ _
  | retrying hash expected attempt => exact attemptTurn_asks _ _ _ _ _ _ _
  | interrupted => trivial

theorem dashTurn_asks (c : Dash.Confirmer) (payment : Payment) (forward : String) (now : Instant)
    (s : Timed Dash.Stage) : (dashTurn c payment forward now s).Asks (·.isCheck) :=
  Turn.asks_within (Turn.asks_of_all _ fun _ => rfl) fun _ => trivial

theorem bitcoinCashTurn_asks (c : BitcoinCash.Confirmer) (expected : BitcoinCash.Expectation)
    (now : Instant) (s : Timed BitcoinCash.Stage) :
    (bitcoinCashTurn c expected now s).Asks (·.isCheck) :=
  Turn.asks_within (Turn.asks_of_all _ fun _ => rfl) fun _ => trivial

theorem begin_asks (v : Verifier) (request : Request) (payment : Payment) (now : Instant) :
    (v.begin request payment now).Asks (·.isCheck) := by
  unfold begin
  split
  · split
    · trivial
    · rfl
  · split
    · trivial
    · exact dashTurn_asks _ _ _ _ _
  · split
    · exact bitcoinCashTurn_asks _ _ _ _
    · trivial
  · trivial

theorem turn_asks (v : Verifier) (payment : Payment) (now : Instant) (s : VerifierStage) :
    (v.turn payment now s).Asks (·.isCheck) := by
  cases s with
  | ethereum s =>
      cases v with
      | ethereum c attempts retryPause =>
          exact Turn.asks_within (ethereumTurn_asks _ _ _ _ _ _) fun _ => trivial
      | dash c => trivial
      | bitcoinCash c => trivial
  | dash forward s =>
      cases v with
      | dash c => exact dashTurn_asks _ _ _ _ _
      | ethereum c attempts retryPause => trivial
      | bitcoinCash c => trivial
  | bitcoinCash expected s =>
      cases v with
      | bitcoinCash c => exact bitcoinCashTurn_asks _ _ _ _
      | ethereum c attempts retryPause => trivial
      | dash c => trivial

theorem checks_of_passes {asked : List Contact} {s : VerifierStage}
    (h : v.Passes request payment asked s) : ∀ a ∈ asked, a.call.isCheck := by
  induction h with
  | opens now step => exact Turn.asked_of_leads step (v.begin_asks _ _ now)
  | goes now _ step ih =>
      intro a ha
      rcases List.mem_append.1 ha with ha | ha
      · exact Turn.asked_of_leads step (v.turn_asks _ now _) a ha
      · exact ih a ha

theorem checks_of_gives {asked : List Contact} {verdict : Verdict}
    (h : v.Gives request payment asked verdict) : ∀ a ∈ asked, a.call.isCheck := by
  cases h with
  | atOnce now ends => simp
  | later now passes ends => exact checks_of_passes passes

end Verifier

end Settlement
