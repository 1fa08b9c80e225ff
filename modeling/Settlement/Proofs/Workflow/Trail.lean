import Settlement.Proofs.Verifier.Checks
import Settlement.Workflow

/-!
# What the work on a message has asked

At every stage of the work on a message it is known what has been asked on the way, up to the
replies. `Trail` says so while the outcome is open, `Decided` when it is settled and the mail about
it is not, and `Informed` when only the lock is left to be given back. `track_of_course` puts the
three together for every stage, and `done_of_ends` for every outcome. All lists are latest first.
-/

namespace Settlement.Workflow

/-- What was asked up to a stage at which the outcome is open. -/
inductive Trail (v : Verifier) (body : ByteArray) : Stage → List Contact → Prop
  | received : Trail v body .received []
  | leased {request : Request} {ttl : Duration} (r : Except LockError (Option Lease))
      (read : Request.ofBody? v.chain body = .ok request)
      (version : request.version = messageVersion) (length : lockTtl? v = some ttl) :
      Trail v body (.leased request r)
        [⟨.acquire (lockKey v.chain.name request.user request.number) ttl, r⟩]
  | found {request : Request} {lease : Lease} {asked : List Contact}
      (r : Except StoreError (Option Payment))
      (trail : Trail v body (.leased request (.ok (some lease))) asked) :
      Trail v body (.found request lease r) (⟨.findPayment request.user request.number, r⟩ :: asked)
  | verifying {request : Request} {lease : Lease} {payment : Payment} {s : VerifierStage}
      {asked checks : List Contact}
      (trail : Trail v body (.found request lease (.ok (some payment))) asked)
      (fits : refusal? v request payment = none) (passes : v.Passes request payment checks s) :
      Trail v body (.verifying request lease payment s) (checks ++ asked)
  | confirmed {request : Request} {lease : Lease} {payment : Payment}
      {asked checks : List Contact} (r : Except StoreError Bool)
      (trail : Trail v body (.found request lease (.ok (some payment))) asked)
      (fits : refusal? v request payment = none)
      (gives : v.Gives request payment checks (.ok ())) :
      Trail v body (.confirmed lease payment r)
        (⟨.confirmPayment payment.txHash, r⟩ :: (checks ++ asked))
  | credited {lease : Lease} {payment : Payment} {asked : List Contact}
      (r : Except StoreError (Option Decimal))
      (trail : Trail v body (.confirmed lease payment (.ok true)) asked) :
      Trail v body (.credited lease payment r)
        (⟨.addCredits payment.user payment.credits, r⟩ :: asked)

/-- What was asked when the outcome is settled, and the mail that is then due. -/
inductive Decided (v : Verifier) (body : ByteArray) (lease : Lease) :
    Outcome → Option (Payment × Notice) → List Contact → Prop
  | unread {request : Request} {e : StoreError} {asked : List Contact}
      (trail : Trail v body (.found request lease (.error e)) asked) :
      Decided v body lease (.rejected (.store e.message)) none asked
  | missing {request : Request} {asked : List Contact}
      (trail : Trail v body (.found request lease (.ok none)) asked) :
      Decided v body lease (.rejected .paymentNotFound) none asked
  | refused {request : Request} {payment : Payment} {reason : Rejection} {asked : List Contact}
      (trail : Trail v body (.found request lease (.ok (some payment))) asked)
      (refusal : refusal? v request payment = some reason) :
      Decided v body lease (.rejected reason) none asked
  | cancelled {request : Request} {payment : Payment} {asked checks : List Contact}
      (trail : Trail v body (.found request lease (.ok (some payment))) asked)
      (fits : refusal? v request payment = none)
      (gives : v.Gives request payment checks (.error (.verification .cancelled))) :
      Decided v body lease .abandoned none (checks ++ asked)
  | failed {request : Request} {payment : Payment} {e : ConfirmationError}
      {asked checks : List Contact}
      (trail : Trail v body (.found request lease (.ok (some payment))) asked)
      (fits : refusal? v request payment = none) (other : e ≠ .cancelled)
      (gives : v.Gives request payment checks (.error (.verification e))) :
      Decided v body lease (.rejected (.verification e)) (some (payment, .failure payment e))
        (checks ++ asked)
  | objected {request : Request} {payment : Payment} {reason : Rejection}
      {asked checks : List Contact}
      (trail : Trail v body (.found request lease (.ok (some payment))) asked)
      (fits : refusal? v request payment = none) (other : ∀ e, reason ≠ .verification e)
      (gives : v.Gives request payment checks (.error reason)) :
      Decided v body lease (.rejected reason) none (checks ++ asked)
  | unconfirmed {payment : Payment} {e : StoreError} {asked : List Contact}
      (trail : Trail v body (.confirmed lease payment (.error e)) asked) :
      Decided v body lease (.rejected (.store e.message)) none asked
  | overtaken {payment : Payment} {asked : List Contact}
      (trail : Trail v body (.confirmed lease payment (.ok false)) asked) :
      Decided v body lease (.rejected .alreadyConfirmed) none asked
  | ungranted {payment : Payment} {e : StoreError} {asked : List Contact}
      (trail : Trail v body (.credited lease payment (.error e)) asked) :
      Decided v body lease (.rejected (.store e.message)) none asked
  | granted {payment : Payment} {balance : Decimal} {asked : List Contact}
      (trail : Trail v body (.credited lease payment (.ok (some balance))) asked) :
      Decided v body lease (.confirmed payment.credits) (some (payment, .success payment)) asked

/-- What was asked when the mail about a settled outcome is done with: none was due, nobody wants
it, or it was handed over. -/
inductive Informed (v : Verifier) (body : ByteArray) (lease : Lease) (outcome : Outcome) :
    List Contact → Prop
  | silent {asked : List Contact} (decided : Decided v body lease outcome none asked) :
      Informed v body lease outcome asked
  | unwanted {payment : Payment} {notice : Notice} {asked : List Contact}
      (r : Except StoreError (Option User))
      (decided : Decided v body lease outcome (some (payment, notice)) asked)
      (unwanted : ∀ user, r = .ok (some user) → user.emailEnabled = false) :
      Informed v body lease outcome (⟨.findUser payment.user, r⟩ :: asked)
  | mailed {payment : Payment} {notice : Notice} {user : User} {asked : List Contact}
      (r : Except NotifyError Unit)
      (decided : Decided v body lease outcome (some (payment, notice)) asked)
      (wanted : user.emailEnabled) :
      Informed v body lease outcome
        (⟨.notify (.toUser user notice.subject notice.content), r⟩ ::
          ⟨.findUser payment.user, (.ok (some user) : Except StoreError (Option User))⟩ :: asked)

/-- What was asked up to a stage. -/
def Track (v : Verifier) (body : ByteArray) (asked : List Contact) : Stage → Prop
  | .mailing lease outcome notice r => ∃ payment before,
      Decided v body lease outcome (some (payment, notice)) before ∧
        asked = ⟨.findUser payment.user, r⟩ :: before
  | .mailed lease outcome => Informed v body lease outcome asked
  | .released outcome => ∃ lease r before,
      Informed v body lease outcome before ∧ asked = ⟨.release lease, r⟩ :: before
  | stage => Trail v body stage asked

/-- What was asked up to the end with an outcome. -/
inductive Done (v : Verifier) (body : ByteArray) : Outcome → List Contact → Prop
  | malformed {fault : Json.Fault} (read : Request.ofBody? v.chain body = .error fault) :
      Done v body (.rejected (.malformed (.fault fault))) []
  | unsupported {request : Request} (read : Request.ofBody? v.chain body = .ok request)
      (version : request.version ≠ messageVersion) :
      Done v body (.rejected (.unsupportedVersion request.version)) []
  | unlocked {request : Request} {r : Except LockError (Option Lease)} {asked : List Contact}
      (trail : Trail v body (.leased request r) asked) (none : ∀ lease, r ≠ .ok (some lease)) :
      Done v body .abandoned asked
  | released {lease : Lease} {outcome : Outcome} {asked : List Contact}
      (r : Except LockError Unit) (informed : Informed v body lease outcome asked) :
      Done v body outcome (⟨.release lease, r⟩ :: asked)

section

variable {v : Verifier} {body : ByteArray} {request : Request} {lease : Lease}
  {payment : Payment} {outcome : Outcome} {asked before checks : List Contact} {stage : Stage}

theorem track_finish (informed : Informed v body lease outcome before)
    (h : (finish lease outcome).Leads asked stage) : Track v body (asked ++ before) stage := by
  obtain ⟨r, rfl, rfl⟩ := Turn.leads_ask.1 h
  exact ⟨lease, r, before, informed, rfl⟩

theorem track_inform {notice : Notice}
    (decided : Decided v body lease outcome (some (payment, notice)) before)
    (h : (inform lease payment outcome notice).Leads asked stage) :
    Track v body (asked ++ before) stage := by
  obtain ⟨r, rfl, rfl⟩ := Turn.leads_ask.1 h
  exact ⟨payment, before, decided, rfl⟩

theorem track_verdict {verdict : Verdict}
    (trail : Trail v body (.found request lease (.ok (some payment))) before)
    (fits : refusal? v request payment = none) (gives : v.Gives request payment checks verdict)
    (h : (afterVerdict lease payment verdict).Leads asked stage) :
    Track v body (asked ++ (checks ++ before)) stage := by
  unfold afterVerdict at h
  split at h
  next =>
    obtain ⟨r, rfl, rfl⟩ := Turn.leads_ask.1 h
    have confirmed := Trail.confirmed r trail fits gives
    exact confirmed
  next => exact track_finish (.silent (.cancelled trail fits gives)) h
  next e other =>
    exact track_inform (.failed trail fits (fun he => other (by rw [he])) gives) h
  next reason _ other => exact track_finish (.silent (.objected trail fits other gives)) h

theorem track_receive (h : (receive v body).Leads asked stage) :
    Track v body (asked ++ []) stage := by
  unfold receive at h
  split at h
  next => exact h.elim
  next request read =>
    split at h
    next => exact h.elim
    next version =>
      split at h
      next => exact h.elim
      next ttl length =>
        obtain ⟨r, rfl, rfl⟩ := Turn.leads_ask.1 h
        exact .leased r read (Decidable.not_not.1 version) length

theorem track_mailing {notice : Notice} {now : Instant} {r : Except StoreError (Option User)}
    (decided : Decided v body lease outcome (some (payment, notice)) before)
    (h : (turn v body now (.mailing lease outcome notice r)).Leads asked stage) :
    Track v body (asked ++ ⟨.findUser payment.user, r⟩ :: before) stage := by
  match r, h with
  | .error e, h => exact track_finish (.unwanted _ decided (by simp)) h
  | .ok none, h => exact track_finish (.unwanted _ decided (by simp)) h
  | .ok (some user), h =>
      simp only [turn] at h
      split at h
      next wanted =>
        obtain ⟨r, rfl, rfl⟩ := Turn.leads_ask.1 h
        exact .mailed r decided wanted
      next unwanted =>
        exact track_finish (.unwanted _ decided (by simpa using unwanted)) h

theorem track_step {now : Instant} {stage' : Stage} (track : Track v body before stage)
    (h : (turn v body now stage).Leads asked stage') : Track v body (asked ++ before) stage' := by
  cases stage with
  | received =>
      cases track
      exact track_receive h
  | leased request r =>
      match r, track, h with
      | .ok (some lease), track, h =>
          obtain ⟨r, rfl, rfl⟩ := Turn.leads_ask.1 h
          exact .found r track
  | found request lease r =>
      match r, track, h with
      | .error e, track, h => exact track_finish (.silent (.unread track)) h
      | .ok none, track, h => exact track_finish (.silent (.missing track)) h
      | .ok (some payment), track, h =>
          simp only [turn] at h
          split at h
          next reason refusal => exact track_finish (.silent (.refused track refusal)) h
          next fits =>
            rcases Turn.leads_andThen h with ⟨verdict, ends, h⟩ | ⟨s, step, rfl⟩
            · exact track_verdict track fits (.atOnce now ends) h
            · exact .verifying track fits (.opens now step)
  | verifying request lease payment s =>
      -- the verification goes on by itself until it gives its verdict
      cases track with
      | @verifying _ _ _ _ before checks trail fits passes =>
          rcases Turn.leads_andThen h with ⟨verdict, ends, h⟩ | ⟨s', step, rfl⟩
          · exact track_verdict trail fits (.later now passes ends) h
          · rw [← List.append_assoc]
            exact .verifying trail fits (.goes now passes step)
  | confirmed lease payment r =>
      match r, track, h with
      | .error e, track, h => exact track_finish (.silent (.unconfirmed track)) h
      | .ok false, track, h => exact track_finish (.silent (.overtaken track)) h
      | .ok true, track, h =>
          obtain ⟨r, rfl, rfl⟩ := Turn.leads_ask.1 h
          exact .credited r track
  | credited lease payment r =>
      match r, track, h with
      | .error e, track, h => exact track_finish (.silent (.ungranted track)) h
      | .ok (some balance), track, h => exact track_inform (.granted track) h
  | mailing lease outcome notice r =>
      obtain ⟨payment, before, decided, rfl⟩ := track
      exact track_mailing decided h
  | mailed lease outcome => exact track_finish track h
  | released outcome => exact h.elim

theorem afterVerdict_ne_done (lease : Lease) (payment : Payment) (verdict : Verdict)
    (outcome : Outcome) : afterVerdict lease payment verdict ≠ .done outcome := by
  unfold afterVerdict
  split <;> simp [finish, inform]

/-- At every stage it is known what has been asked. -/
theorem track_of_course (h : Course (turn v body) .received asked stage) :
    Track v body asked stage := by
  induction h with
  | start => exact .received
  | next now _ step ih => exact track_step ih step

/-- Whatever the outcome, it is known what has been asked. -/
theorem done_of_ends (h : Ends (turn v body) .received asked outcome) :
    Done v body outcome asked := by
  obtain ⟨stage, now, course, ends⟩ := h
  have track := track_of_course course
  cases stage with
  | received =>
      cases track
      simp only [turn, receive] at ends
      split at ends
      next fault read =>
        obtain rfl := Turn.done.inj ends
        exact .malformed read
      next request read =>
        split at ends
        next version =>
          obtain rfl := Turn.done.inj ends
          exact .unsupported read version
        next => split at ends <;> simp at ends
  | leased request r =>
      match r, track, ends with
      | .error e, track, ends =>
          obtain rfl := Turn.done.inj ends
          exact .unlocked track (by simp)
      | .ok none, track, ends =>
          obtain rfl := Turn.done.inj ends
          exact .unlocked track (by simp)
  | found request lease r =>
      match r, ends with
      | .ok (some payment), ends =>
          simp only [turn] at ends
          split at ends
          next => simp [finish] at ends
          next =>
            obtain ⟨verdict, -, hdone⟩ := Turn.eq_done_of_andThen ends
            exact absurd hdone (afterVerdict_ne_done _ _ _ _)
  | verifying request lease payment s =>
      obtain ⟨verdict, -, hdone⟩ := Turn.eq_done_of_andThen ends
      exact absurd hdone (afterVerdict_ne_done _ _ _ _)
  | confirmed lease payment r => rcases r with e | _ | _ <;> simp [turn, finish] at ends
  | credited lease payment r => rcases r with e | _ | _ <;> simp [turn, finish, inform] at ends
  | mailing lease outcome notice r =>
      rcases r with e | _ | user
      · simp [turn, finish] at ends
      · simp [turn, finish] at ends
      · simp only [turn] at ends
        split at ends <;> simp [finish] at ends
  | mailed lease outcome => simp [turn, finish] at ends
  | released outcome =>
      obtain rfl := Turn.done.inj ends
      obtain ⟨lease, r, before, informed, rfl⟩ := track
      exact .released r informed

end

end Settlement.Workflow
