import Mathlib.Data.List.Basic
import Settlement.Proofs.Workflow.Trail

/-!
# What the work on a message does to the books

Three calls are about payments and balances: the payment is looked up, confirmed, and its credits
are granted. `ledger` picks them out of everything that was asked. At every stage they are a part of
the same row, for one payment that was looked up and found fit (`Ledger`), and the outcome is a
confirmation only where the whole row was asked (`confirmed_of_done`).
-/

namespace Settlement

def Call.isLedger : Call → Bool
  | findPayment _ _ => true
  | confirmPayment _ => true
  | addCredits _ _ => true
  | _ => false

namespace Workflow

/-- The calls about payments and balances. -/
def ledger (asked : List Contact) : List Contact := asked.filter (·.call.isLedger)

def checked (asked : List Contact) : List Contact := asked.filter (·.call.isCheck)

/-- A payment was looked up, and then confirmed with the reply `r`. -/
def flipRow (request : Request) (payment : Payment) (r : Except StoreError Bool) : List Contact :=
  [.flip payment.txHash r, .lookup request.user request.number (.ok (some payment))]

/-- A payment was looked up and confirmed, and then its credits granted with the reply `r`. -/
def grantRow (request : Request) (payment : Payment) (r : Except StoreError (Option Decimal)) :
    List Contact :=
  .grant payment.user payment.credits r :: flipRow request payment (.ok true)

/-- How far the work on a message came with the books, latest call first. -/
inductive Ledger (v : Verifier) : List Contact → Prop
  | blank : Ledger v []
  | found (request : Request) (r : Except StoreError (Option Payment)) :
      Ledger v [.lookup request.user request.number r]
  | flipped {request : Request} {payment : Payment} (r : Except StoreError Bool)
      (fits : refusal? v request payment = none) :
      Ledger v (flipRow request payment r)
  | granted {request : Request} {payment : Payment} (r : Except StoreError (Option Decimal))
      (fits : refusal? v request payment = none) :
      Ledger v (grantRow request payment r)

section

variable {v : Verifier} {body : ByteArray} {request : Request} {lease : Lease}
  {payment : Payment} {outcome : Outcome} {mail : Option (Payment × Notice)}
  {asked checks : List Contact} {stage : Stage}

theorem ledger_of_checks (h : ∀ a ∈ checks, a.call.isCheck) : ledger checks = [] := by
  refine List.filter_eq_nil_iff.2 fun a ha => ?_
  have hcheck := h a ha
  cases hcall : a.call <;> simp [hcall, Call.isCheck] at hcheck <;> simp [Call.isLedger]

theorem checked_of_checks (h : ∀ a ∈ checks, a.call.isCheck) : checked checks = checks :=
  List.filter_eq_self.2 h

/-- What is read off the checks alone can be read off all calls. -/
theorem filterMap_checked {B : Type} {f : Contact → Option B} (asked : List Contact)
    (h : ∀ call r, call.isCheck = false → f ⟨call, r⟩ = none) :
    (checked asked).filterMap f = asked.filterMap f := by
  rw [checked, List.filterMap_filter]
  refine List.filterMap_congr fun a _ => ?_
  split
  · rfl
  next hother => exact (h a.call a.reply (by simpa using hother)).symm

theorem ledger_append (before : List Contact) :
    ledger (asked ++ before) = ledger asked ++ ledger before :=
  List.filter_append _ _

theorem checked_append (before : List Contact) :
    checked (asked ++ before) = checked asked ++ checked before :=
  List.filter_append _ _

theorem ledger_of_leased {r : Except LockError (Option Lease)}
    (h : Trail v body (.leased request r) asked) : ledger asked = [] ∧ checked asked = [] := by
  cases h
  exact ⟨rfl, rfl⟩

theorem ledger_of_found {r : Except StoreError (Option Payment)}
    (h : Trail v body (.found request lease r) asked) :
    ledger asked = [.lookup request.user request.number r] ∧ checked asked = [] := by
  cases h with
  | found r trail =>
      obtain ⟨hledger, hchecked⟩ := ledger_of_leased trail
      exact ⟨congrArg (List.cons _) hledger, hchecked⟩

theorem ledger_of_confirmed {r : Except StoreError Bool}
    (h : Trail v body (.confirmed lease payment r) asked) :
    ∃ request, Request.ofBody? v.chain body = .ok request ∧ refusal? v request payment = none ∧
      v.Gives request payment (checked asked) (.ok ()) ∧
      ledger asked = flipRow request payment r := by
  cases h with
  | @confirmed request _ _ before checks r trail fits gives =>
      obtain ⟨hledger, hchecked⟩ := ledger_of_found trail
      have hchecks := Verifier.checks_of_gives gives
      have hall : checked (.flip payment.txHash r :: (checks ++ before)) = checks := by
        change checked (checks ++ before) = checks
        rw [checked_append, hchecked, checked_of_checks hchecks, List.append_nil]
      refine ⟨request, ?_, fits, by rwa [hall], ?_⟩
      · cases trail with
        | found _ trail =>
            cases trail with
            | leased _ read => exact read
      · change .flip payment.txHash r :: ledger (checks ++ before) = flipRow request payment r
        rw [ledger_append, ledger_of_checks hchecks, hledger]
        rfl

theorem ledger_of_credited {r : Except StoreError (Option Decimal)}
    (h : Trail v body (.credited lease payment r) asked) :
    ∃ request, Request.ofBody? v.chain body = .ok request ∧ refusal? v request payment = none ∧
      v.Gives request payment (checked asked) (.ok ()) ∧
      ledger asked = grantRow request payment r := by
  cases h with
  | credited r trail =>
      obtain ⟨request, read, fits, gives, hledger⟩ := ledger_of_confirmed trail
      exact ⟨request, read, fits, gives, congrArg (List.cons _) hledger⟩

theorem ledger_of_trail (h : Trail v body stage asked) : Ledger v (ledger asked) := by
  cases stage with
  | received =>
      cases h
      exact .blank
  | leased request r =>
      rw [(ledger_of_leased h).1]
      exact .blank
  | found request lease r =>
      rw [(ledger_of_found h).1]
      exact .found request r
  | verifying request lease payment s =>
      cases h with
      | verifying trail fits passes =>
          rw [ledger_append, ledger_of_checks (Verifier.checks_of_passes passes),
            (ledger_of_found trail).1]
          exact .found _ _
  | confirmed lease payment r =>
      obtain ⟨request, -, fits, -, hledger⟩ := ledger_of_confirmed h
      rw [hledger]
      exact .flipped r fits
  | credited lease payment r =>
      obtain ⟨request, -, fits, -, hledger⟩ := ledger_of_credited h
      rw [hledger]
      exact .granted r fits
  | mailing lease outcome notice r => cases h
  | mailed lease outcome => cases h
  | released outcome => cases h

theorem ledger_of_verified {r : Except StoreError (Option Payment)} {verdict : Verdict}
    (trail : Trail v body (.found request lease r) asked)
    (gives : v.Gives request payment checks verdict) :
    ledger (checks ++ asked) = [.lookup request.user request.number r] := by
  rw [ledger_append, ledger_of_checks (Verifier.checks_of_gives gives), (ledger_of_found trail).1,
    List.nil_append]

theorem ledger_of_decided (h : Decided v body lease outcome mail asked) :
    Ledger v (ledger asked) := by
  cases h with
  | unread trail => exact ledger_of_trail trail
  | missing trail => exact ledger_of_trail trail
  | refused trail refusal => exact ledger_of_trail trail
  | cancelled trail fits gives => exact ledger_of_verified trail gives ▸ .found _ _
  | failed trail fits other gives => exact ledger_of_verified trail gives ▸ .found _ _
  | objected trail fits other gives => exact ledger_of_verified trail gives ▸ .found _ _
  | unconfirmed trail => exact ledger_of_trail trail
  | overtaken trail => exact ledger_of_trail trail
  | ungranted trail => exact ledger_of_trail trail
  | granted trail => exact ledger_of_trail trail

/-- The mail changes neither the books nor the checks. -/
theorem decided_of_informed (h : Informed v body lease outcome asked) :
    ∃ mail before, Decided v body lease outcome mail before ∧ ledger asked = ledger before ∧
      checked asked = checked before := by
  cases h with
  | silent decided => exact ⟨_, _, decided, rfl, rfl⟩
  | unwanted r decided _ => exact ⟨_, _, decided, rfl, rfl⟩
  | mailed r decided _ => exact ⟨_, _, decided, rfl, rfl⟩

theorem ledger_of_informed (h : Informed v body lease outcome asked) :
    Ledger v (ledger asked) := by
  obtain ⟨mail, before, decided, hledger, -⟩ := decided_of_informed h
  rw [hledger]
  exact ledger_of_decided decided

/-- At every stage the calls on the books are a part of the same row. -/
theorem ledger_of_track (h : Track v body asked stage) : Ledger v (ledger asked) := by
  cases stage with
  | mailing lease outcome notice r =>
      obtain ⟨payment, before, decided, rfl⟩ := h
      change Ledger v (ledger before)
      exact ledger_of_decided decided
  | mailed lease outcome => exact ledger_of_informed h
  | released outcome =>
      obtain ⟨lease, r, before, informed, rfl⟩ := h
      change Ledger v (ledger before)
      exact ledger_of_informed informed
  | received => exact ledger_of_trail h
  | leased request r => exact ledger_of_trail h
  | found request lease r => exact ledger_of_trail h
  | verifying request lease payment s => exact ledger_of_trail h
  | confirmed lease payment r => exact ledger_of_trail h
  | credited lease payment r => exact ledger_of_trail h

/-- What has been asked when the outcome is a confirmation: the payment was verified, and then
confirmed and its credits granted. -/
theorem confirmed_of_done {credits : Decimal} (h : Done v body (.confirmed credits) asked) :
    ∃ request payment balance, Request.ofBody? v.chain body = .ok request ∧
      refusal? v request payment = none ∧ credits = payment.credits ∧
      v.Gives request payment (checked asked) (.ok ()) ∧
      ledger asked = grantRow request payment (.ok (some balance)) := by
  cases h with
  | released r informed =>
      obtain ⟨mail, before, decided, hledger, hchecked⟩ := decided_of_informed informed
      cases decided with
      | @granted payment balance _ trail =>
          obtain ⟨request, read, fits, gives, hbefore⟩ := ledger_of_credited trail
          exact ⟨request, payment, balance, read, fits, rfl, hchecked ▸ gives,
            hledger.trans hbefore⟩

end

end Workflow

end Settlement
