import Settlement.Proofs.Publication
import Settlement.Proofs.Workflow.Trail

/-!
# What becomes of a published message

A message may be turned away for what it is, before anything is asked about its payment: it cannot
be read, or its version is not understood. Only the work's first turn does so, and nothing that
comes of a payment is taken for it (`legible_of_decided`). A message that was accepted for
publication is never turned away as unreadable. Its version, however, is not looked at before it is
published, so it is turned away for that if it has another than the current one
(`outcome_of_published`).
-/

namespace Settlement

/-- The message itself is refused, whatever its payment is. -/
def Rejection.isIllegible : Rejection → Bool
  | malformed _ => true
  | unsupportedVersion _ => true
  | _ => false

namespace Verifier

variable {v : Verifier} {request : Request} {payment : Payment} {now : Instant}
  {reason : Rejection}

theorem legible_of_verdict {α : Type} {result : Except ConfirmationError α}
    (h : verdict result = .error reason) : reason.isIllegible = false := by
  cases result with
  | ok a => cases h
  | error e =>
      cases h
      rfl

theorem legible_of_dashTurn {c : Dash.Confirmer} {forward : String} {s : Timed Dash.Stage}
    (h : dashTurn c payment forward now s = .done (.error reason)) :
    reason.isIllegible = false := by
  obtain ⟨result, -, ends⟩ := Turn.eq_done_of_within h
  exact legible_of_verdict (Turn.done.inj ends)

theorem legible_of_bitcoinCashTurn {c : BitcoinCash.Confirmer}
    {expected : BitcoinCash.Expectation} {s : Timed BitcoinCash.Stage}
    (h : bitcoinCashTurn c expected now s = .done (.error reason)) :
    reason.isIllegible = false := by
  obtain ⟨result, -, ends⟩ := Turn.eq_done_of_within h
  exact legible_of_verdict (Turn.done.inj ends)

theorem legible_of_attempt {c : Ethereum.Confirmer} {attempts attempt : Nat}
    {retryPause : Duration} {hash : Hash} {expected : Ethereum.Expectation}
    {s : Timed Ethereum.Stage}
    (h : attemptTurn c attempts retryPause hash expected attempt s = .done (.error reason)) :
    reason.isIllegible = false := by
  obtain ⟨result, -, ends⟩ := Turn.eq_done_of_within h
  cases result with
  | ok receipt => cases ends
  | error e =>
      simp only [afterAttempt] at ends
      split at ends
      next => cases ends
      next =>
        cases ends
        rfl

theorem legible_of_begin (h : v.begin request payment now = .done (.error reason)) :
    reason.isIllegible = false := by
  unfold begin at h
  split at h
  next =>
    split at h
    next hash =>
      cases h
      unfold paymentHash at hash
      split at hash
      next => cases hash
      next =>
        cases hash
        rfl
    next => cases h
  next =>
    split at h
    next =>
      cases h
      rfl
    next => exact legible_of_dashTurn h
  next =>
    split at h
    next => exact legible_of_bitcoinCashTurn h
    next =>
      cases h
      rfl
  next =>
    cases h
    rfl

theorem legible_of_ethereumTurn {c : Ethereum.Confirmer} {attempts : Nat} {retryPause : Duration}
    {s : EthereumStage}
    (h : ethereumTurn c attempts retryPause payment now s = .done (.error reason)) :
    reason.isIllegible = false := by
  unfold ethereumTurn at h
  split at h
  next =>
    cases h
    rfl
  next registered =>
    split at h
    next expected =>
      cases h
      unfold expectation at expected
      split at expected
      next => cases expected
      next =>
        split at expected
        next => cases expected
        next =>
          cases expected
          rfl
    next => exact legible_of_attempt h
  next => exact legible_of_attempt h
  next => exact legible_of_attempt h
  next =>
    cases h
    rfl

theorem legible_of_turn {s : VerifierStage} (h : v.turn payment now s = .done (.error reason)) :
    reason.isIllegible = false := by
  unfold turn at h
  split at h <;> split at h
  next =>
    obtain ⟨verdict, inside, ends⟩ := Turn.eq_done_of_andThen h
    obtain rfl := Turn.done.inj ends
    exact legible_of_ethereumTurn inside
  next =>
    cases h
    rfl
  next => exact legible_of_dashTurn h
  next =>
    cases h
    rfl
  next => exact legible_of_bitcoinCashTurn h
  next =>
    cases h
    rfl

theorem legible_of_gives {asked : List Contact}
    (gives : v.Gives request payment asked (.error reason)) : reason.isIllegible = false := by
  cases gives with
  | atOnce now ends => exact legible_of_begin ends
  | later now passes ends => exact legible_of_turn ends

end Verifier

namespace Workflow

variable {v : Verifier} {body : ByteArray} {asked : List Contact} {lease : Lease}

theorem legible_of_refusal {request : Request} {payment : Payment} {reason : Rejection}
    (h : refusal? v request payment = some reason) : reason.isIllegible = false := by
  unfold refusal? at h
  repeat' split at h
  all_goals
    cases h
    try rfl

/-- No outcome that is settled after the payment was looked up blames the message itself. -/
theorem legible_of_decided {reason : Rejection} {notice : Option (Payment × Notice)}
    (h : Decided v body lease (.rejected reason) notice asked) : reason.isIllegible = false := by
  cases h with
  | unread | missing | failed | unconfirmed | overtaken | ungranted => rfl
  | refused _ refusal => exact legible_of_refusal refusal
  | objected _ _ _ gives => exact Verifier.legible_of_gives gives

theorem legible_of_informed {reason : Rejection}
    (h : Informed v body lease (.rejected reason) asked) : reason.isIllegible = false := by
  cases h with
  | silent decided => exact legible_of_decided decided
  | unwanted _ decided => exact legible_of_decided decided
  | mailed _ decided => exact legible_of_decided decided

/-- Nothing is asked for a message before it has been read and its version found to be current. -/
theorem read_of_trail {stage : Stage} (h : Trail v body stage asked) :
    stage = .received ∨
      ∃ request, Request.ofBody? v.chain body = .ok request ∧ request.version = messageVersion := by
  induction h with
  | received => exact Or.inl rfl
  | leased r read version => exact Or.inr ⟨_, read, version⟩
  | found r _ ih => exact Or.inr (ih.resolve_left nofun)
  | verifying _ _ _ ih => exact Or.inr (ih.resolve_left nofun)
  | confirmed r _ _ _ ih => exact Or.inr (ih.resolve_left nofun)
  | credited r _ ih => exact Or.inr (ih.resolve_left nofun)

theorem read_of_decided {outcome : Outcome} {notice : Option (Payment × Notice)}
    (h : Decided v body lease outcome notice asked) :
    ∃ request, Request.ofBody? v.chain body = .ok request ∧ request.version = messageVersion := by
  cases h with
  | unread trail | missing trail | refused trail | cancelled trail | failed trail | objected trail
  | unconfirmed trail | overtaken trail | ungranted trail | granted trail =>
      exact (read_of_trail trail).resolve_left nofun

theorem read_of_informed {outcome : Outcome} (h : Informed v body lease outcome asked) :
    ∃ request, Request.ofBody? v.chain body = .ok request ∧ request.version = messageVersion := by
  cases h with
  | silent decided => exact read_of_decided decided
  | unwanted _ decided => exact read_of_decided decided
  | mailed _ decided => exact read_of_decided decided

section

variable {request : Request} {outcome : Outcome}

/-- A message of the current version is not turned away for itself. -/
theorem legible_of_ends {reason : Rejection} (read : Request.ofBody? v.chain body = .ok request)
    (version : request.version = messageVersion)
    (ends : Ends (turn v body) .received asked (.rejected reason)) :
    reason.isIllegible = false := by
  cases done_of_ends ends with
  | malformed fault =>
      rw [read] at fault
      cases fault
  | unsupported other unsupported =>
      obtain rfl := Except.ok.inj (read.symm.trans other)
      exact absurd version unsupported
  | released r informed => exact legible_of_informed informed

/-- A message of another version is turned away for that. -/
theorem unsupported_of_ends (read : Request.ofBody? v.chain body = .ok request)
    (version : request.version ≠ messageVersion)
    (ends : Ends (turn v body) .received asked outcome) :
    outcome = .rejected (.unsupportedVersion request.version) := by
  have current : ∀ {other}, Request.ofBody? v.chain body = .ok other →
      other.version = messageVersion → False := by
    intro other hread hversion
    obtain rfl := Except.ok.inj (read.symm.trans hread)
    exact version hversion
  cases done_of_ends ends with
  | malformed fault =>
      rw [read] at fault
      cases fault
  | unsupported other _ =>
      obtain rfl := Except.ok.inj (read.symm.trans other)
      rfl
  | unlocked trail _ =>
      obtain ⟨_, hread, hversion⟩ := (read_of_trail trail).resolve_left nofun
      exact (current hread hversion).elim
  | released r informed =>
      obtain ⟨_, hread, hversion⟩ := read_of_informed informed
      exact (current hread hversion).elim

theorem receive_unsupported (read : Request.ofBody? v.chain body = .ok request)
    (version : request.version ≠ messageVersion) :
    receive v body = .done (.rejected (.unsupportedVersion request.version)) := by
  unfold receive
  rw [read]
  exact if_pos version

end

section

variable {chain : Blockchain} {message : String} {p : Publication}

/-- A message that was accepted for publication is never turned away as malformed. It is turned away
as of an unsupported version exactly when its version is not the current one, which it is not
refused for when it is published. -/
theorem outcome_of_published (accepted : Publication.ofMessage? chain message = .ok p)
    (own : v.chain = chain) :
    (∀ asked outcome, Ends (turn v p.body.toUTF8) .received asked outcome →
      (∀ reason, outcome ≠ .rejected (.malformed reason)) ∧
      ∀ version, outcome = .rejected (.unsupportedVersion version) ↔
        p.request.version = version ∧ version ≠ messageVersion) ∧
    (p.request.version ≠ messageVersion →
      Ends (turn v p.body.toUTF8) .received []
        (.rejected (.unsupportedVersion p.request.version))) := by
  subst own
  have read := Publication.ofBody?_of_accepted accepted
  refine ⟨fun asked outcome ends => ?_, fun version => ?_⟩
  · by_cases version : p.request.version = messageVersion
    · refine ⟨?_, fun n => ⟨?_, ?_⟩⟩
      · rintro reason rfl
        cases legible_of_ends read version ends
      · rintro rfl
        cases legible_of_ends read version ends
      · rintro ⟨rfl, other⟩
        exact absurd version other
    · obtain rfl := unsupported_of_ends read version ends
      refine ⟨by simp, fun n => ⟨?_, ?_⟩⟩
      · intro h
        obtain rfl : p.request.version = n := by simpa using h
        exact ⟨rfl, version⟩
      · rintro ⟨rfl, -⟩
        rfl
  · exact ⟨.received, 0, .start, receive_unsupported read version⟩

end

namespace Outdated

/-- A message of a version that is not understood. -/
def message : String := "\x7b\"user_name\": \"alice\", \"payment_number\": 7, \"version\": 2\x7d"

def publication : Publication where
  queue := "eth-payment-confirmation-queue"
  request := .ethereum ⟨2, "alice", 7⟩
  body := "\x7b\"payment_number\":7,\"user_name\":\"alice\",\"version\":2\x7d"

def verifier : Verifier := .ethereum ⟨⟨3, ⟨1⟩, ⟨1000⟩⟩, ⟨1, 2⟩⟩ 1 ⟨1⟩

end Outdated

/-- A message of the second version is published, and what is published is dropped. -/
theorem outcome_of_published_outdated :
    Publication.ofMessage? .ethereum Outdated.message = .ok Outdated.publication ∧
      Ends (turn Outdated.verifier Outdated.publication.body.toUTF8) .received []
        (.rejected (.unsupportedVersion 2)) := by
  have accepted : Publication.ofMessage? .ethereum Outdated.message = .ok Outdated.publication :=
    Publication.of_toOption (by decide +kernel)
  have own : Outdated.verifier.chain = .ethereum := rfl
  have dropped := outcome_of_published accepted own
  exact ⟨accepted, dropped.2 (by decide)⟩

end Workflow

end Settlement
