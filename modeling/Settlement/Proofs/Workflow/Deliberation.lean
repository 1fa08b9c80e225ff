import Settlement.Proofs.Hosting
import Settlement.Proofs.Store.Bookings
import Settlement.Proofs.Workflow.Trail

/-!
# The work under the lock

Between the grant of its lock and the mail, the work on a message comes to a decision. That part is
an activity of its own (`deliberate`), which neither knows its lease nor asks for anything but the
checks of the verification and the records of payments and balances; `turn_stage` says that the
work consists of it. What the store may have become on the way is read off how far it has come
(`Considered`), and with that what may be decided (`Justified`).
-/

namespace Settlement

/-- The call is one that is made on the way to a decision. -/
def Call.isWeighed : Call → Bool
  | findPayment _ _ => true
  | confirmPayment _ => true
  | addCredits _ _ => true
  | call => call.isCheck

/-- The call is one that changes a payment or a balance. -/
def Call.isBooking : Call → Bool
  | confirmPayment _ => true
  | addCredits _ _ => true
  | _ => false

theorem Call.isWeighed_of_check {call : Call} (h : call.isCheck) : call.isWeighed := by
  cases call <;> first | rfl | cases h

namespace Workflow

/-- How far the work under the lock has come. -/
inductive Progress where
  | leased
  | found (r : Except StoreError (Option Payment))
  | verifying (payment : Payment) (s : VerifierStage)
  | confirmed (payment : Payment) (r : Except StoreError Bool)
  | credited (payment : Payment) (r : Except StoreError (Option Decimal))

/-- The stage of the work on a message for a lease. -/
def Progress.stage (request : Request) (lease : Lease) : Progress → Stage
  | leased => .leased request (.ok (some lease))
  | found r => .found request lease r
  | verifying payment s => .verifying request lease payment s
  | confirmed payment r => .confirmed lease payment r
  | credited payment r => .credited lease payment r

/-- An outcome, with the mail that is due about it. -/
structure Decision where
  outcome : Outcome
  mail : Option (Payment × Notice)

namespace Decision

/-- Nobody is told. -/
def silent (outcome : Outcome) : Decision := ⟨outcome, none⟩

/-- The payment failed on its chain. -/
def failed (payment : Payment) (e : ConfirmationError) : Decision :=
  ⟨.rejected (.verification e), some (payment, .failure payment e)⟩

/-- The payment is confirmed and its credits are granted. -/
def granted (payment : Payment) : Decision :=
  ⟨.confirmed payment.credits, some (payment, .success payment)⟩

end Decision

/-- What follows from the verdict on a payment. -/
def judge (payment : Payment) : Verdict → Step Progress Decision
  | .ok () => .ask (.confirmPayment payment.txHash) none (.confirmed payment)
  | .error (.verification .cancelled) => .done (.silent .abandoned)
  | .error (.verification e) => .done (.failed payment e)
  | .error reason => .done (.silent (.rejected reason))

/-- What is done under the lock until there is a decision. -/
def deliberate (v : Verifier) (request : Request) (now : Instant) :
    Progress → Step Progress Decision
  | .leased => .ask (.findPayment request.user request.number) none .found
  | .found (.error e) => .done (.silent (.rejected (.store e.message)))
  | .found (.ok none) => .done (.silent (.rejected .paymentNotFound))
  | .found (.ok (some payment)) =>
    match refusal? v request payment with
    | some reason => .done (.silent (.rejected reason))
    | none => (v.begin request payment now).andThen (.verifying payment) (judge payment)
  | .verifying payment s => (v.turn payment now s).andThen (.verifying payment) (judge payment)
  | .confirmed _ (.error e) => .done (.silent (.rejected (.store e.message)))
  | .confirmed _ (.ok false) => .done (.silent (.rejected .alreadyConfirmed))
  | .confirmed payment (.ok true) =>
    .ask (.addCredits payment.user payment.credits) none (.credited payment)
  | .credited _ (.error e) => .done (.silent (.rejected (.store e.message)))
  | .credited _ (.ok none) => .crash
  | .credited payment (.ok (some _)) => .done (.granted payment)

/-- What is done with a decision: the mail comes first. -/
def conclude (lease : Lease) (d : Decision) : Step Stage Outcome :=
  match d.mail with
  | none => finish lease d.outcome
  | some (payment, notice) => inform lease payment d.outcome notice

section

variable {v : Verifier} {body : ByteArray} {request : Request} {lease : Lease}
  {payment : Payment} {outcome : Outcome} {now : Instant} {p : Progress} {d : Decision}

theorem afterVerdict_eq (request : Request) (lease : Lease) (payment : Payment)
    (verdict : Verdict) : afterVerdict lease payment verdict =
      (judge payment verdict).andThen (Progress.stage request lease) (conclude lease) := by
  rcases verdict with reason | ⟨⟩
  · cases reason with
    | verification e => cases e <;> rfl
    | _ => rfl
  · rfl

/-- Under the lock the work on a message is the deliberation, and then what is done with the
decision. -/
theorem turn_stage (v : Verifier) (body : ByteArray) (now : Instant) (request : Request)
    (lease : Lease) (p : Progress) : turn v body now (p.stage request lease) =
      (deliberate v request now p).andThen (Progress.stage request lease) (conclude lease) := by
  have verification : ∀ (payment : Payment) (t : Step VerifierStage Verdict),
      t.andThen (.verifying request lease payment) (afterVerdict lease payment) =
        (t.andThen (.verifying payment) (judge payment)).andThen (Progress.stage request lease)
          (conclude lease) := by
    intro payment t
    rw [Turn.andThen_andThen]
    exact congrArg (t.andThen (.verifying request lease payment))
      (funext (afterVerdict_eq request lease payment))
  cases p with
  | leased => rfl
  | found r =>
      rcases r with e | _ | payment
      · rfl
      · rfl
      · simp only [Progress.stage, turn, deliberate]
        cases refusal? v request payment with
        | some reason => rfl
        | none => exact verification payment _
  | verifying payment s => exact verification payment _
  | confirmed payment r => rcases r with e | _ | _ <;> rfl
  | credited payment r => rcases r with e | _ | _ <;> rfl

theorem judge_asks (payment : Payment) (verdict : Verdict) :
    (judge payment verdict).Asks (·.isWeighed) := by
  unfold judge
  split <;> first | rfl | trivial

theorem asks_weighed {t : Step VerifierStage Verdict} (asks : t.Asks (·.isCheck)) :
    (t.andThen (.verifying payment) (judge payment)).Asks (·.isWeighed) :=
  Turn.asks_within (asks.imp fun _ => Call.isWeighed_of_check) (judge_asks payment)

/-- On the way to a decision nothing else is asked for. -/
theorem deliberate_asks (v : Verifier) (request : Request) (now : Instant) (p : Progress) :
    (deliberate v request now p).Asks (·.isWeighed) := by
  cases p with
  | leased => rfl
  | found r =>
      rcases r with e | _ | payment
      · trivial
      · trivial
      · simp only [deliberate]
        split
        · trivial
        · exact asks_weighed (v.begin_asks _ _ _)
  | verifying payment s => exact asks_weighed (v.turn_asks _ _ _)
  | confirmed payment r => rcases r with e | _ | _ <;> first | rfl | trivial
  | credited payment r => rcases r with e | _ | _ <;> trivial

end

/-! ## What may be decided -/

/-- The store after a turn that has asked for something: nothing but a booking changes it, and no
user's name or address. -/
structure Entered (asked : List Contact) (s s' : Store) : Prop where
  kept : (∀ a ∈ asked, a.call.isBooking = false) → s' = s
  contacts : s'.SameContacts s

/-- What the store may have become, from `s₀` on, with what is known of the payment. -/
inductive Considered (v : Verifier) (request : Request) (s₀ : Store) : Progress → Store → Prop
  | leased : Considered v request s₀ .leased s₀
  | found (r : Except StoreError (Option Payment)) : Considered v request s₀ (.found r) s₀
  | verifying {payment : Payment} (s : VerifierStage)
      (fits : refusal? v request payment = none) :
      Considered v request s₀ (.verifying payment s) s₀
  | confirmed {payment : Payment} {s : Store} (r : Except StoreError Bool)
      (fits : refusal? v request payment = none) (contacts : s.SameContacts s₀) :
      Considered v request s₀ (.confirmed payment r) s
  | credited {payment : Payment} {s : Store} (r : Except StoreError (Option Decimal))
      (fits : refusal? v request payment = none) (contacts : s.SameContacts s₀) :
      Considered v request s₀ (.credited payment r) s

/-- What may be decided, and what the store is then. -/
inductive Justified (v : Verifier) (request : Request) (s₀ : Store) : Decision → Store → Prop
  | silent {outcome : Outcome} {s : Store} (unconfirmed : ∀ credits, outcome ≠ .confirmed credits)
      (other : ∀ e, outcome ≠ .rejected (.verification e)) (kept : outcome = .abandoned → s = s₀) :
      Justified v request s₀ (.silent outcome) s
  | failed {payment : Payment} {e : ConfirmationError}
      (fits : refusal? v request payment = none) (other : e ≠ .cancelled) :
      Justified v request s₀ (.failed payment e) s₀
  | granted {payment : Payment} {s : Store} (fits : refusal? v request payment = none)
      (contacts : s.SameContacts s₀) : Justified v request s₀ (.granted payment) s

section

variable {v : Verifier} {request : Request} {payment : Payment} {now : Instant}
  {p p' : Progress} {d : Decision} {asked : List Contact} {s₀ s s' : Store}

theorem unbooked_of_check {t : Step VerifierStage Verdict} {next : VerifierStage}
    (asks : t.Asks (·.isCheck)) (h : t.Leads asked next) :
    ∀ a ∈ asked, a.call.isBooking = false := by
  intro a ha
  have check := Turn.asked_of_leads h asks a ha
  cases hcall : a.call <;> first | rfl | simp [hcall, Call.isCheck] at check

theorem leads_judge {verdict : Verdict} (h : (judge payment verdict).Leads asked p') :
    ∃ r, p' = .confirmed payment r := by
  unfold judge at h
  split at h
  next =>
    obtain ⟨r, -, rfl⟩ := Turn.leads_ask.1 h
    exact ⟨r, rfl⟩
  all_goals exact h.elim

/-- While a payment that fits is verified, the store stays as it is; then it may be confirmed. -/
theorem considered_verification {t : Step VerifierStage Verdict} (asks : t.Asks (·.isCheck))
    (fits : refusal? v request payment = none) (entered : Entered asked s₀ s')
    (h : (t.andThen (.verifying payment) (judge payment)).Leads asked p') :
    Considered v request s₀ p' s' := by
  rcases Turn.leads_andThen h with ⟨verdict, -, hnext⟩ | ⟨next, hnext, rfl⟩
  · obtain ⟨r, rfl⟩ := leads_judge hnext
    exact .confirmed r fits entered.contacts
  · rw [entered.kept (unbooked_of_check asks hnext)]
    exact .verifying next fits

theorem Considered.next (considered : Considered v request s₀ p s) (entered : Entered asked s s')
    (h : (deliberate v request now p).Leads asked p') : Considered v request s₀ p' s' := by
  cases considered with
  | leased =>
      obtain ⟨r, rfl, rfl⟩ := Turn.leads_ask.1 h
      rw [entered.kept (by simp [Call.isBooking])]
      exact .found r
  | found r =>
      rcases r with e | _ | payment
      · exact h.elim
      · exact h.elim
      · simp only [deliberate] at h
        split at h
        next => exact h.elim
        next fits => exact considered_verification (v.begin_asks _ _ _) fits entered h
  | verifying stage fits => exact considered_verification (v.turn_asks _ _ _) fits entered h
  | confirmed r fits contacts =>
      rcases r with e | _ | _
      · exact h.elim
      · exact h.elim
      · obtain ⟨r, -, rfl⟩ := Turn.leads_ask.1 h
        exact .credited r fits (entered.contacts.trans contacts)
  | credited r fits contacts => rcases r with e | _ | _ <;> exact h.elim

theorem justified_rejected {reason : Rejection} (other : ∀ e, reason ≠ .verification e) :
    Justified v request s₀ (.silent (.rejected reason)) s :=
  .silent nofun (fun e h => other e (Outcome.rejected.inj h)) nofun

theorem refusal?_ne_verification {reason : Rejection} (h : refusal? v request payment = some reason)
    (e : ConfirmationError) : reason ≠ .verification e := by
  rintro rfl
  unfold refusal? at h
  split at h
  · cases h
  · split at h
    · cases h
    · split at h <;> cases h

theorem justified_of_verdict {verdict : Verdict} (fits : refusal? v request payment = none)
    (h : judge payment verdict = .done d) : Justified v request s₀ d s₀ := by
  unfold judge at h
  split at h
  next => cases h
  next =>
    cases h
    exact .silent nofun nofun fun _ => rfl
  next e other =>
    cases h
    exact .failed fits other
  next reason _ other =>
    cases h
    exact justified_rejected other

/-- Whatever is decided, it is known what the store is then. -/
theorem Considered.justified (considered : Considered v request s₀ p s)
    (h : deliberate v request now p = .done d) : Justified v request s₀ d s := by
  cases considered with
  | leased => cases h
  | found r =>
      rcases r with e | _ | payment
      · cases h
        exact justified_rejected nofun
      · cases h
        exact justified_rejected nofun
      · simp only [deliberate] at h
        split at h
        next reason refusal =>
          cases h
          exact justified_rejected (refusal?_ne_verification refusal)
        next fits =>
          obtain ⟨verdict, -, hdone⟩ := Turn.eq_done_of_andThen h
          exact justified_of_verdict fits hdone
  | verifying stage fits =>
      obtain ⟨verdict, -, hdone⟩ := Turn.eq_done_of_andThen h
      exact justified_of_verdict fits hdone
  | confirmed r fits contacts =>
      rcases r with e | _ | _
      · cases h
        exact justified_rejected nofun
      · cases h
        exact justified_rejected nofun
      · cases h
  | credited r fits contacts =>
      rcases r with e | _ | _
      · cases h
        exact justified_rejected nofun
      · cases h
      · cases h
        exact .granted fits contacts

end

end Workflow

end Settlement
