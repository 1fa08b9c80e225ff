import Settlement.Proofs.Verifier.Admission
import Settlement.Proofs.Workflow.Custody

/-!
# What comes before a chain is asked

A message has to pass a row of checks before anything is asked of a chain: it is read, the lock of
its payment is taken, the payment is looked up and has to be an open one of the same chain and user,
and the verifier has checks of its own. `Cleared` says that a message has passed them all, `Barred`
at which one it is turned away, and with which outcome. A chain is asked only on behalf of messages
that are cleared (`cleared_of_course`), and a message that comes to its end has been cleared and the
chain asked, or it was turned away (`passed_or_barred_of_ends`).
-/

namespace Settlement

/-- The call takes a lock or gives it back, or reads the store. -/
def Call.isPreliminary : Call → Bool
  | acquire _ _ => true
  | release _ => true
  | findPayment _ _ => true
  | findAddress _ => true
  | _ => false

namespace Workflow

/-- The message has been read and the lock of its payment taken, and the payment has been looked up,
with the reply `r`. -/
inductive Sought (v : Verifier) (body : ByteArray) (request : Request)
    (r : Except StoreError (Option Payment)) : List Contact → Prop
  | intro {ttl : Duration} {lease : Lease} (read : Request.ofBody? v.chain body = .ok request)
      (version : request.version = messageVersion) (length : lockTtl? v = some ttl) :
      Sought v body request r
        [.lookup request.user request.number r,
          .acquire (lockKey v.chain.name request.user request.number) ttl (.ok (some lease))]

/-- The payment that was found is an open one of the verifier's chain and of the user who asks. -/
structure Fits (v : Verifier) (request : Request) (payment : Payment) : Prop where
  chain : payment.chain = v.chain
  user : payment.user = request.user
  unconfirmed : payment.confirmed = false

/-- The message has passed all checks, and what was asked for them is listed, latest first. -/
inductive Cleared (v : Verifier) (body : ByteArray) : List Contact → Prop
  | intro {request : Request} {payment : Payment} {asked checks : List Contact}
      (sought : Sought v body request (.ok (some payment)) asked) (fits : Fits v request payment)
      (admits : v.Admits request payment checks) : Cleared v body (checks ++ asked)

/-- The message has passed all checks, and the chain has been asked. -/
structure Passed (v : Verifier) (body : ByteArray) (asked : List Contact) : Prop where
  cleared : ∃ checked, checked <:+ asked ∧ Cleared v body checked
  remote : ∃ a ∈ asked, a.call.isRemote

/-- The message has been read, but its lock would have to be held for a time that is no duration. -/
def Endless (v : Verifier) (body : ByteArray) : Prop :=
  ∃ request, Request.ofBody? v.chain body = .ok request ∧ request.version = messageVersion ∧
    lockTtl? v = none

/-- The message is turned away with an outcome by the first check that it does not pass, and what
was asked for it and the ones before is listed, latest first. -/
inductive Barred (v : Verifier) (body : ByteArray) : List Contact → Outcome → Prop
  | malformed {fault : Json.Fault} (read : Request.ofBody? v.chain body = .error fault) :
      Barred v body [] (.rejected (.malformed (.fault fault)))
  | unsupported {request : Request} (read : Request.ofBody? v.chain body = .ok request)
      (version : request.version ≠ messageVersion) :
      Barred v body [] (.rejected (.unsupportedVersion request.version))
  | unlocked {request : Request} {ttl : Duration} {r : Except LockError (Option Lease)}
      (read : Request.ofBody? v.chain body = .ok request)
      (version : request.version = messageVersion) (length : lockTtl? v = some ttl)
      (taken : ∀ lease, r ≠ .ok (some lease)) :
      Barred v body [.acquire (lockKey v.chain.name request.user request.number) ttl r] .abandoned
  | unread {request : Request} {e : StoreError} {asked : List Contact}
      (sought : Sought v body request (.error e) asked) :
      Barred v body asked (.rejected (.store e.message))
  | missing {request : Request} {asked : List Contact}
      (sought : Sought v body request (.ok none) asked) :
      Barred v body asked (.rejected .paymentNotFound)
  | foreign {request : Request} {payment : Payment} {asked : List Contact}
      (sought : Sought v body request (.ok (some payment)) asked)
      (chain : payment.chain ≠ v.chain) : Barred v body asked (.rejected .blockchainMismatch)
  | unowned {request : Request} {payment : Payment} {asked : List Contact}
      (sought : Sought v body request (.ok (some payment)) asked)
      (chain : payment.chain = v.chain) (user : payment.user ≠ request.user) :
      Barred v body asked (.rejected .userMismatch)
  | replayed {request : Request} {payment : Payment} {asked : List Contact}
      (sought : Sought v body request (.ok (some payment)) asked)
      (chain : payment.chain = v.chain) (user : payment.user = request.user)
      (confirmed : payment.confirmed = true) : Barred v body asked (.rejected .alreadyConfirmed)
  | objected {request : Request} {payment : Payment} {reason : Rejection}
      {asked checks : List Contact} (sought : Sought v body request (.ok (some payment)) asked)
      (fits : Fits v request payment) (objects : v.Objects request payment checks reason) :
      Barred v body (checks ++ asked) (.rejected reason)

section

variable {v : Verifier} {body : ByteArray} {request : Request} {lease : Lease}
  {payment : Payment} {outcome : Outcome} {asked before checks : List Contact} {stage : Stage}
  {r : Except StoreError (Option Payment)}

theorem sought_of_trail (trail : Trail v body (.found request lease r) asked) :
    Sought v body request r asked := by
  cases trail with
  | found r trail =>
      cases trail with
      | leased r read version length => exact .intro read version length

theorem Sought.own (sought : Sought v body request r asked) : request.chain = v.chain := by
  cases sought with
  | intro read version length => exact Request.chain_of_ofBody? read

theorem fits_of_refusal (h : refusal? v request payment = none) : Fits v request payment := by
  unfold refusal? at h
  split at h
  next => cases h
  next chain =>
    split at h
    next => cases h
    next user =>
      split at h
      next => cases h
      next open' =>
        exact ⟨Decidable.not_not.1 chain, Decidable.not_not.1 user, by simpa using open'⟩

theorem barred_of_refusal {reason : Rejection}
    (sought : Sought v body request (.ok (some payment)) asked)
    (h : refusal? v request payment = some reason) : Barred v body asked (.rejected reason) := by
  unfold refusal? at h
  split at h
  next chain =>
    cases h
    exact .foreign sought chain
  next chain =>
    have chain := Decidable.not_not.1 chain
    split at h
    next user =>
      cases h
      exact .unowned sought chain user
    next user =>
      split at h
      next confirmed =>
        cases h
        exact .replayed sought chain (Decidable.not_not.1 user) confirmed
      next => cases h

theorem cleared_of_admits (sought : Sought v body request (.ok (some payment)) asked)
    (fits : Fits v request payment)
    (h : ∃ checked, checked <:+ checks ∧ v.Admits request payment checked) :
    ∃ checked, checked <:+ checks ++ asked ∧ Cleared v body checked := by
  obtain ⟨checked, ⟨later, rfl⟩, admits⟩ := h
  refine ⟨checked ++ asked, ⟨later, ?_⟩, .intro sought fits admits⟩
  rw [List.append_assoc]

theorem Passed.suffix (passed : Passed v body before) (later : before <:+ asked) :
    Passed v body asked := by
  obtain ⟨⟨checked, first, cleared⟩, a, ha, remote⟩ := passed
  exact ⟨⟨checked, first.trans later, cleared⟩, a, later.mem ha, remote⟩

theorem Barred.preliminary (barred : Barred v body asked outcome) :
    ∀ a ∈ asked, a.call.isPreliminary := by
  have quiet : ∀ {request r asked}, Sought v body request r asked →
      ∀ a ∈ asked, a.call.isPreliminary := by
    rintro request r asked ⟨⟩
    simp [Call.isPreliminary]
  cases barred with
  | malformed read => simp
  | unsupported read version => simp
  | unlocked read version length taken => simp [Call.isPreliminary]
  | unread sought => exact quiet sought
  | missing sought => exact quiet sought
  | foreign sought chain => exact quiet sought
  | unowned sought chain user => exact quiet sought
  | replayed sought chain user confirmed => exact quiet sought
  | objected sought fits objects =>
      intro a ha
      rcases List.mem_append.1 ha with ha | ha
      · cases objects <;> simp_all [Call.isPreliminary]
      · exact quiet sought a ha

/-- A message whose verification has ended has passed, or the verifier objects to it. -/
theorem passed_or_objected {verdict : Verdict}
    (trail : Trail v body (.found request lease (.ok (some payment))) asked)
    (fits : refusal? v request payment = none) (gives : v.Gives request payment checks verdict) :
    Passed v body (checks ++ asked) ∨
      ∃ reason, verdict = .error reason ∧ v.Objects request payment checks reason ∧
        Barred v body (checks ++ asked) (.rejected reason) := by
  have sought := sought_of_trail trail
  have fits := fits_of_refusal fits
  rcases Verifier.admits_or_objects sought.own gives with
    ⟨admits, a, ha, remote⟩ | ⟨reason, hverdict, objects⟩
  · exact Or.inl ⟨cleared_of_admits sought fits admits, a, List.mem_append_left _ ha, remote⟩
  · exact Or.inr ⟨reason, hverdict, objects, .objected sought fits objects⟩

theorem passed_of_confirmed {confirmed : Except StoreError Bool}
    (trail : Trail v body (.confirmed lease payment confirmed) asked) : Passed v body asked := by
  cases trail with
  | confirmed r found fits gives =>
      rcases passed_or_objected found fits gives with passed | ⟨_, h, -⟩
      · exact passed.suffix (List.suffix_cons _ _)
      · cases h

theorem passed_of_credited {granted : Except StoreError (Option Decimal)}
    (trail : Trail v body (.credited lease payment granted) asked) : Passed v body asked := by
  cases trail with
  | credited r trail => exact (passed_of_confirmed trail).suffix (List.suffix_cons _ _)

/-- A message whose outcome is settled has passed, or was turned away without a mail. -/
theorem passed_or_barred_of_decided {mail : Option (Payment × Notice)}
    (decided : Decided v body lease outcome mail asked) :
    Passed v body asked ∨ mail = none ∧ Barred v body asked outcome := by
  cases decided with
  | unread trail => exact Or.inr ⟨rfl, .unread (sought_of_trail trail)⟩
  | missing trail => exact Or.inr ⟨rfl, .missing (sought_of_trail trail)⟩
  | refused trail refusal => exact Or.inr ⟨rfl, barred_of_refusal (sought_of_trail trail) refusal⟩
  | cancelled trail fits gives =>
      rcases passed_or_objected trail fits gives with passed | ⟨reason, h, objects, -⟩
      · exact Or.inl passed
      · exact absurd (Except.error.inj h).symm (objects.not_verification _)
  | failed trail fits other gives =>
      rcases passed_or_objected trail fits gives with passed | ⟨reason, h, objects, -⟩
      · exact Or.inl passed
      · exact absurd (Except.error.inj h).symm (objects.not_verification _)
  | objected trail fits other gives =>
      rcases passed_or_objected trail fits gives with passed | ⟨reason, h, -, barred⟩
      · exact Or.inl passed
      · cases h
        exact Or.inr ⟨rfl, barred⟩
  | unconfirmed trail => exact Or.inl (passed_of_confirmed trail)
  | overtaken trail => exact Or.inl (passed_of_confirmed trail)
  | ungranted trail => exact Or.inl (passed_of_credited trail)
  | granted trail => exact Or.inl (passed_of_credited trail)

/-- A message that has come to its end has passed, or was turned away. -/
theorem passed_or_barred_of_ends (h : Ends (turn v body) .received asked outcome) :
    Passed v body asked ∨ ∃ checked, checked <:+ asked ∧ Barred v body checked outcome ∧
      ∀ a ∈ asked, a.call.isPreliminary := by
  cases done_of_ends h with
  | malformed read => exact Or.inr ⟨[], List.suffix_refl _, .malformed read, by simp⟩
  | unsupported read version =>
      exact Or.inr ⟨[], List.suffix_refl _, .unsupported read version, by simp⟩
  | unlocked trail taken =>
      cases trail with
      | leased r read version length =>
          have barred := Barred.unlocked read version length taken
          exact Or.inr ⟨_, List.suffix_refl _, barred, barred.preliminary⟩
  | @released lease _ before r informed =>
      -- a mail is due only to a message that has passed
      have mailed : ∀ {payment notice earlier},
          Decided v body lease outcome (some (payment, notice)) earlier → earlier <:+ before →
          Passed v body (⟨.release lease, r⟩ :: before) := by
        intro payment notice earlier decided later
        rcases passed_or_barred_of_decided decided with passed | ⟨none, -⟩
        · exact passed.suffix (later.trans (List.suffix_cons _ _))
        · cases none
      cases informed with
      | silent decided =>
          rcases passed_or_barred_of_decided decided with passed | ⟨-, barred⟩
          · exact Or.inl (passed.suffix (List.suffix_cons _ _))
          · refine Or.inr ⟨_, List.suffix_cons _ _, barred, fun a ha => ?_⟩
            rcases List.mem_cons.1 ha with rfl | ha
            · rfl
            · exact barred.preliminary a ha
      | unwanted r decided unwanted => exact Or.inl (mailed decided (List.suffix_cons _ _))
      | mailed r decided wanted =>
          exact Or.inl (mailed decided ((List.suffix_cons _ _).trans (List.suffix_cons _ _)))

theorem receive_cases (v : Verifier) (body : ByteArray) :
    (∃ outcome, receive v body = .done outcome) ∨
      (Endless v body ∧ receive v body = .crash) ∨
      ∃ request ttl, Request.ofBody? v.chain body = .ok request ∧ receive v body =
        .ask (.acquire (lockKey v.chain.name request.user request.number) ttl) none
          (.leased request) := by
  unfold receive
  split
  next => exact Or.inl ⟨_, rfl⟩
  next request read =>
    split
    next => exact Or.inl ⟨_, rfl⟩
    next version =>
      split
      next endless =>
        exact Or.inr (Or.inl ⟨⟨request, read, Decidable.not_not.1 version, endless⟩, rfl⟩)
      next ttl _ => exact Or.inr (Or.inr ⟨request, ttl, read, rfl⟩)

theorem receive_asks (v : Verifier) (body : ByteArray) :
    (receive v body).Asks (·.isRemote = false) := by
  rcases receive_cases v body with ⟨outcome, h⟩ | ⟨-, h⟩ | ⟨request, ttl, -, h⟩
  · rw [h]
    trivial
  · rw [h]
    trivial
  · rw [h]
    rfl

theorem afterVerdict_asks (lease : Lease) (payment : Payment) (verdict : Verdict) :
    (afterVerdict lease payment verdict).Asks (·.isRemote = false) := by
  unfold afterVerdict
  split <;> rfl

theorem mailing_asks (now : Instant) (notice : Notice) (r : Except StoreError (Option User)) :
    (turn v body now (.mailing lease outcome notice r)).Asks (·.isRemote = false) := by
  rcases r with e | _ | user
  · rfl
  · rfl
  · simp only [turn]
    split <;> rfl

/-- A turn that asks a chain is one of a message that is cleared. -/
theorem cleared_of_leads {now : Instant} {stage' : Stage} {a : Contact}
    (track : Track v body before stage) (step : (turn v body now stage).Leads asked stage')
    (ha : a ∈ asked) (remote : a.call.isRemote) :
    ∃ checked, checked <:+ before ∧ Cleared v body checked := by
  have silent : ∀ {t : Step Stage Outcome}, t.Leads asked stage' →
      t.Asks (·.isRemote = false) → False := by
    intro t step asks
    have hlocal := Turn.asked_of_leads step asks a ha
    rw [remote] at hlocal
    cases hlocal
  cases stage with
  | received => exact (silent step (receive_asks v body)).elim
  | leased request r => rcases r with e | _ | lease <;> exact (silent step (by trivial)).elim
  | found request lease r =>
      match r, track, step with
      | .error e, _, step => exact (silent step rfl).elim
      | .ok none, _, step => exact (silent step rfl).elim
      | .ok (some payment), track, step =>
          simp only [turn] at step
          split at step
          next => exact (silent step rfl).elim
          next fits =>
            rcases Turn.leads_andThen step with ⟨verdict, -, step⟩ | ⟨s, inside, -⟩
            · exact (silent step (afterVerdict_asks _ _ _)).elim
            · rcases Verifier.leads_begin inside with ⟨_, _, _, _, _, rfl, -⟩ | ⟨admits, -⟩
              · obtain rfl := List.mem_singleton.1 ha
                cases remote
              · exact ⟨_, List.suffix_refl _,
                  .intro (sought_of_trail track) (fits_of_refusal fits) admits⟩
  | verifying request lease payment s =>
      cases track with
      | verifying trail fits passes =>
          rcases Turn.leads_andThen step with ⟨verdict, -, step⟩ | ⟨s', inside, -⟩
          · exact (silent step (afterVerdict_asks _ _ _)).elim
          · exact cleared_of_admits (sought_of_trail trail) (fits_of_refusal fits)
              (Verifier.admits_of_leads passes inside)
  | confirmed lease payment r => rcases r with e | _ | _ <;> exact (silent step rfl).elim
  | credited lease payment r => rcases r with e | _ | _ <;> exact (silent step (by trivial)).elim
  | mailing lease outcome notice r => exact (silent step (mailing_asks _ _ _)).elim
  | mailed lease outcome => exact (silent step rfl).elim
  | released outcome => exact step.elim

/-- Whenever a chain is asked, the message has been cleared before. -/
theorem cleared_of_course (course : Course (turn v body) .received asked stage)
    {later earlier : List Contact} {a : Contact} (split : asked = later ++ a :: earlier)
    (remote : a.call.isRemote) : ∃ checked, checked <:+ earlier ∧ Cleared v body checked := by
  induction course generalizing later earlier with
  | start => simp at split
  | next now course step ih =>
      rcases List.append_eq_append_iff.1 split with ⟨rest, -, hbefore⟩ | ⟨rest, rfl, hrest⟩
      · exact ih hbefore
      · cases rest with
        | nil =>
            have hbefore : _ = [] ++ a :: earlier := hrest.symm
            exact ih hbefore
        | cons b rest =>
            obtain ⟨rfl, rfl⟩ := List.cons.inj hrest
            obtain ⟨checked, first, cleared⟩ := cleared_of_leads (track_of_course course) step
              (List.mem_append_right _ List.mem_cons_self) remote
            exact ⟨checked, first.trans (List.suffix_append _ _), cleared⟩

end

end Workflow

end Settlement
