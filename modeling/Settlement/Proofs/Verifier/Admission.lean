import Settlement.Proofs.Verifier.Checks
import Settlement.Proofs.Verifier.Span

/-!
# What a verification checks before it asks the chain

A verifier first checks the request and the record of its payment: that an Ethereum payment has a
hash and its user an address or none, that a Dash request names a forward, and that a Bitcoin Cash
request names the deposit address. `Admits` says that the checks have turned out well, `Objects`
which one has not. A verification that goes on was admitted (`admits_of_leads`), and one that ends
was admitted or ends with the objection (`admits_or_objects`). The first turns settle which
(`settles_begin`, `settles_addressed`): they end with an objection or ask the chain.
-/

namespace Settlement

namespace Contact

abbrev address (user : String) (r : Except StoreError (Option String)) : Contact :=
  ⟨.findAddress user, r⟩

end Contact

namespace Request

open Json

variable {chain : Blockchain} {source : Source} {doc : Doc} {request : Request}

theorem chain_of_map {α : Type} {reading : Except Fault α} {make : α → Request}
    (own : ∀ a, (make a).chain = chain) (h : reading.map make = .ok request) :
    request.chain = chain := by
  cases reading with
  | error fault => cases h
  | ok a =>
      cases h
      exact own a

/-- The message of a chain is read as a request of that chain. -/
theorem chain_of_readJson (h : readJson chain source doc = .ok request) :
    request.chain = chain := by
  cases chain with
  | ethereum => exact chain_of_map (fun _ => rfl) h
  | dash => exact chain_of_map (fun _ => rfl) h
  | bitcoinCash => exact chain_of_map (fun _ => rfl) h

theorem chain_of_ofBody? {body : ByteArray} (h : ofBody? chain body = .ok request) :
    request.chain = chain := by
  unfold ofBody? Doc.read at h
  split at h
  next doc _ => exact chain_of_readJson h
  next doc rest _ =>
    cases hread : readJson chain .text doc with
    | error fault =>
        rw [hread] at h
        cases h
    | ok read =>
        rw [hread] at h
        dsimp only [bind, Except.bind] at h
        split at h
        · cases h
          exact chain_of_readJson hread
        · cases h

end Request

namespace Verifier

/-- The checks that come before the chain is asked have turned out well. What was asked for them is
listed, latest first. -/
inductive Admits : Verifier → Request → Payment → List Contact → Prop
  | ethereum {c : Ethereum.Confirmer} {attempts : Nat} {retryPause : Duration}
      {r : EthereumRequest} {payment : Payment} {hash : Hash} {registered : Option String}
      (read : Hex.word? 256 (Hex.withoutMarks payment.txHash.toList) = .ok hash)
      (address : ∀ text, registered = some text → ∃ address, Address.ofText? text = .ok address) :
      Admits (.ethereum c attempts retryPause) (.ethereum r) payment
        [.address payment.user (.ok registered)]
  | dash {c : Dash.Confirmer} {r : DashRequest} {payment : Payment} (named : r.forwardId ≠ "") :
      Admits (.dash c) (.dash r) payment []
  | bitcoinCash {c : BitcoinCash.Confirmer} {r : BitcoinCashRequest} {payment : Payment}
      (deposit : BitcoinCash.addressKey r.recipient = BitcoinCash.addressKey c.deposit) :
      Admits (.bitcoinCash c) (.bitcoinCash r) payment []

/-- One of the checks that come before the chain is asked is the first to fail, for the reason that
is given. What was asked for them is listed, latest first. -/
inductive Objects : Verifier → Request → Payment → List Contact → Rejection → Prop
  | noHash {c : Ethereum.Confirmer} {attempts : Nat} {retryPause : Duration}
      {r : EthereumRequest} {payment : Payment} {fault : HexFault}
      (read : Hex.word? 256 (Hex.withoutMarks payment.txHash.toList) = .error fault) :
      Objects (.ethereum c attempts retryPause) (.ethereum r) payment []
        (.invalidPayment s!"tx hash {payment.txHash}: {fault.message}")
  | unread {c : Ethereum.Confirmer} {attempts : Nat} {retryPause : Duration}
      {r : EthereumRequest} {payment : Payment} {hash : Hash} (e : StoreError)
      (read : Hex.word? 256 (Hex.withoutMarks payment.txHash.toList) = .ok hash) :
      Objects (.ethereum c attempts retryPause) (.ethereum r) payment
        [.address payment.user (.error e)] (.store e.message)
  | noAddress {c : Ethereum.Confirmer} {attempts : Nat} {retryPause : Duration}
      {r : EthereumRequest} {payment : Payment} {hash : Hash} {text : String} {fault : HexFault}
      (read : Hex.word? 256 (Hex.withoutMarks payment.txHash.toList) = .ok hash)
      (address : Address.ofText? text = .error fault) :
      Objects (.ethereum c attempts retryPause) (.ethereum r) payment
        [.address payment.user (.ok (some text))]
        (.invalidPayment s!"registered address {text}: {fault.message}")
  | unnamed {c : Dash.Confirmer} {r : DashRequest} {payment : Payment} (named : r.forwardId = "") :
      Objects (.dash c) (.dash r) payment [] (.forged "empty payment forward id")
  | elsewhere {c : BitcoinCash.Confirmer} {r : BitcoinCashRequest} {payment : Payment}
      (deposit : BitcoinCash.addressKey r.recipient ≠ BitcoinCash.addressKey c.deposit) :
      Objects (.bitcoinCash c) (.bitcoinCash r) payment []
        (.forged s!"recipient {r.recipient} is not the deposit address")

/-- Where a verification stands with its checks: the address is still to be read, or all is well and
the chain has been asked. -/
inductive Standing (v : Verifier) (request : Request) (payment : Payment) :
    List Contact → VerifierStage → Prop
  | addressed {hash : Hash} (r : Except StoreError (Option String))
      (chain : v.chain = .ethereum) (own : request.chain = .ethereum)
      (read : paymentHash payment = .ok hash) :
      Standing v request payment [.address payment.user r] (.ethereum (.addressed hash r))
  | admitted {checked checks : List Contact} {s : VerifierStage} (first : checked <:+ checks)
      (admits : v.Admits request payment checked) (remote : ∃ a ∈ checks, a.call.isRemote) :
      Standing v request payment checks s

section

variable {v : Verifier} {request : Request} {payment : Payment} {asked checks : List Contact}
  {s s' : VerifierStage} {now : Instant} {hash : Hash} {registered : Option String}
  {c : Ethereum.Confirmer} {attempts : Nat} {retryPause : Duration} {r : EthereumRequest}

theorem word?_of_paymentHash (h : paymentHash payment = .ok hash) :
    Hex.word? 256 (Hex.withoutMarks payment.txHash.toList) = .ok hash := by
  unfold paymentHash at h
  split at h
  next word read =>
    cases h
    exact read
  next => cases h

theorem objects_of_paymentHash {reason : Rejection} (h : paymentHash payment = .error reason) :
    Objects (.ethereum c attempts retryPause) (.ethereum r) payment [] reason := by
  unfold paymentHash at h
  split at h
  next => cases h
  next fault read =>
    cases h
    exact .noHash read

theorem admits_of_expectation {expected : Ethereum.Expectation}
    (read : paymentHash payment = .ok hash) (h : expectation payment registered = .ok expected) :
    Admits (.ethereum c attempts retryPause) (.ethereum r) payment
      [.address payment.user (.ok registered)] := by
  refine .ethereum (word?_of_paymentHash read) ?_
  rintro text rfl
  simp only [expectation] at h
  split at h
  next address haddress => exact ⟨address, haddress⟩
  next => cases h

theorem objects_of_expectation {reason : Rejection} (read : paymentHash payment = .ok hash)
    (h : expectation payment registered = .error reason) :
    Objects (.ethereum c attempts retryPause) (.ethereum r) payment
      [.address payment.user (.ok registered)] reason := by
  cases registered with
  | none => cases h
  | some text =>
      simp only [expectation] at h
      split at h
      next => cases h
      next fault address =>
        cases h
        exact .noAddress (word?_of_paymentHash read) address

/-- A verification that begins reads an address, or has been admitted and asks the chain. -/
theorem leads_begin (step : (v.begin request payment now).Leads asked s) :
    (∃ hash r, v.chain = .ethereum ∧ request.chain = .ethereum ∧ paymentHash payment = .ok hash ∧
        asked = [.address payment.user r] ∧ s = .ethereum (.addressed hash r)) ∨
      v.Admits request payment [] ∧ ∃ a ∈ asked, a.call.isRemote := by
  unfold begin at step
  split at step
  next =>
    split at step
    next => exact step.elim
    next hash read =>
      obtain ⟨r, rfl, rfl⟩ := Turn.leads_ask.1 step
      exact Or.inl ⟨hash, r, rfl, rfl, read, rfl, rfl⟩
  next c r =>
    split at step
    next => exact step.elim
    next named =>
      obtain ⟨reply, rfl, -⟩ := step
      refine Or.inr ⟨.dash fun empty => named ?_, _, List.mem_cons_self, rfl⟩
      rw [empty]
      rfl
  next c r =>
    split at step
    next same =>
      obtain ⟨reply, rfl, -⟩ := step
      exact Or.inr ⟨.bitcoinCash (eq_of_beq same), _, List.mem_cons_self, rfl⟩
    next => exact step.elim
  next => exact step.elim

/-- A verification that goes on has been admitted, and the chain is asked. -/
theorem Standing.admits (standing : Standing v request payment checks s)
    (step : (v.turn payment now s).Leads asked s') :
    (∃ checked, checked <:+ checks ∧ v.Admits request payment checked) ∧
      ∃ a ∈ asked ++ checks, a.call.isRemote := by
  cases standing with
  | admitted first admits remote =>
      obtain ⟨a, ha, remote⟩ := remote
      exact ⟨⟨_, first, admits⟩, a, List.mem_append_right _ ha, remote⟩
  | addressed r chain own read =>
      match v, request, chain, own with
      | .ethereum c attempts retryPause, .ethereum _, _, _ =>
          rcases Turn.leads_andThen step with ⟨verdict, -, done⟩ | ⟨next, inside, -⟩
          · exact done.elim
          · cases r with
            | error e => exact inside.elim
            | ok registered =>
                simp only [ethereumTurn] at inside
                split at inside
                next => exact inside.elim
                next expected h =>
                  obtain ⟨reply, rfl, -⟩ := inside
                  exact ⟨⟨_, List.suffix_refl _, admits_of_expectation read h⟩, _,
                    List.mem_cons_self, rfl⟩

theorem standing_of_passes (passes : v.Passes request payment checks s) :
    Standing v request payment checks s := by
  induction passes with
  | opens now step =>
      rcases leads_begin step with ⟨hash, r, chain, own, read, rfl, rfl⟩ | ⟨admits, remote⟩
      · exact .addressed r chain own read
      · exact .admitted List.nil_suffix admits remote
  | goes now _ step ih =>
      obtain ⟨⟨checked, first, admits⟩, remote⟩ := ih.admits step
      exact .admitted (first.trans (List.suffix_append _ _)) admits remote

theorem admits_of_leads (passes : v.Passes request payment checks s)
    (step : (v.turn payment now s).Leads asked s') :
    ∃ checked, checked <:+ checks ∧ v.Admits request payment checked :=
  ((standing_of_passes passes).admits step).1

theorem objects_of_begin {verdict : Verdict} (own : request.chain = v.chain)
    (ends : v.begin request payment now = .done verdict) :
    ∃ reason, verdict = .error reason ∧ v.Objects request payment [] reason := by
  match v, request, own with
  | .ethereum c attempts retryPause, .ethereum r, _ =>
      simp only [begin] at ends
      split at ends
      next reason h =>
        cases ends
        exact ⟨reason, rfl, objects_of_paymentHash h⟩
      next => cases ends
  | .dash c, .dash r, _ =>
      simp only [begin] at ends
      split at ends
      next empty =>
        cases ends
        exact ⟨_, rfl, .unnamed (String.isEmpty_iff.1 empty)⟩
      next => cases ends
  | .bitcoinCash c, .bitcoinCash r, _ =>
      simp only [begin] at ends
      split at ends
      next => cases ends
      next other =>
        cases ends
        exact ⟨_, rfl, .elsewhere fun same => other (beq_of_eq same)⟩

theorem Standing.objects {verdict : Verdict} (standing : Standing v request payment checks s)
    (ends : v.turn payment now s = .done verdict) :
    ((∃ checked, checked <:+ checks ∧ v.Admits request payment checked) ∧
        ∃ a ∈ checks, a.call.isRemote) ∨
      ∃ reason, verdict = .error reason ∧ v.Objects request payment checks reason := by
  cases standing with
  | admitted first admits remote => exact Or.inl ⟨⟨_, first, admits⟩, remote⟩
  | addressed r chain own read =>
      match v, request, chain, own with
      | .ethereum c attempts retryPause, .ethereum _, _, _ =>
          obtain ⟨verdict', inside, hverdict⟩ := Turn.eq_done_of_andThen ends
          obtain rfl := Turn.done.inj hverdict
          cases r with
          | error e =>
              cases inside
              exact Or.inr ⟨_, rfl, .unread e (word?_of_paymentHash read)⟩
          | ok registered =>
              simp only [ethereumTurn] at inside
              split at inside
              next reason h =>
                cases inside
                exact Or.inr ⟨reason, rfl, objects_of_expectation read h⟩
              next => cases inside

/-- A verification that ends has been admitted and has asked the chain, or it ends with the
objection to it. -/
theorem admits_or_objects {verdict : Verdict} (own : request.chain = v.chain)
    (gives : v.Gives request payment checks verdict) :
    ((∃ checked, checked <:+ checks ∧ v.Admits request payment checked) ∧
        ∃ a ∈ checks, a.call.isRemote) ∨
      ∃ reason, verdict = .error reason ∧ v.Objects request payment checks reason := by
  cases gives with
  | atOnce now ends => exact Or.inr (objects_of_begin own ends)
  | later now passes ends => exact (standing_of_passes passes).objects ends

theorem Objects.not_verification {reason : Rejection}
    (h : v.Objects request payment checks reason) (e : ConfirmationError) :
    reason ≠ .verification e := by
  cases h <;> simp

/-- The turn raises an objection or asks the chain. -/
def Settles {S : Type} (t : Step S Verdict) : Prop :=
  (∃ reason, (∀ e, reason ≠ .verification e) ∧ t = .done (.error reason)) ∨
    ∃ call cut resume, call.isRemote ∧ t = .ask call cut resume

/-- A verification reads an address first, or settles at once whether it asks the chain. -/
theorem settles_begin (own : request.chain = v.chain) (now : Instant) :
    (∃ hash, v.chain = .ethereum ∧ paymentHash payment = .ok hash ∧
        v.begin request payment now =
          .ask (.findAddress payment.user) none fun r => .ethereum (.addressed hash r)) ∨
      Settles (v.begin request payment now) := by
  match v, request, own with
  | .ethereum c attempts retryPause, .ethereum r, _ =>
      simp only [begin]
      split
      next reason h =>
        have objects : Objects (.ethereum c attempts retryPause) (.ethereum r) payment [] reason :=
          objects_of_paymentHash h
        exact Or.inr (Or.inl ⟨reason, objects.not_verification, rfl⟩)
      next hash read => exact Or.inl ⟨hash, rfl, read, rfl⟩
  | .dash c, .dash r, _ =>
      simp only [begin]
      split
      next => exact Or.inr (Or.inl ⟨_, by simp, rfl⟩)
      next => exact Or.inr (Or.inr ⟨_, _, _, rfl, rfl⟩)
  | .bitcoinCash c, .bitcoinCash r, _ =>
      simp only [begin]
      split
      next => exact Or.inr (Or.inr ⟨_, _, _, rfl, rfl⟩)
      next => exact Or.inr (Or.inl ⟨_, by simp, rfl⟩)

theorem settles_addressed {r : Except StoreError (Option String)} (chain : v.chain = .ethereum)
    (own : request.chain = .ethereum) (read : paymentHash payment = .ok hash) (now : Instant) :
    Settles (v.turn payment now (.ethereum (.addressed hash r))) := by
  match v, request, chain, own with
  | .ethereum c attempts retryPause, .ethereum request, _, _ =>
      cases r with
      | error e => exact Or.inl ⟨_, by simp, rfl⟩
      | ok registered =>
          simp only [turn, ethereumTurn]
          split
          next reason h =>
            have objects : Objects (.ethereum c attempts retryPause) (.ethereum request) payment
                [.address payment.user (.ok registered)] reason :=
              objects_of_expectation read h
            exact Or.inl ⟨reason, objects.not_verification, rfl⟩
          next expected h => exact Or.inr ⟨_, _, _, rfl, rfl⟩

end

end Verifier

end Settlement
