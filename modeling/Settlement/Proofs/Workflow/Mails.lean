import Settlement.Proofs.Queue.Memory.Deeds
import Settlement.Proofs.Workflow.Errand

/-!
# Who is told about a payment

The work on a message sends one mail at most (`posted_of_comes`), and only about a decision: that
the payment is confirmed, or that it failed on its chain. The mail goes to the user of the payment,
who can be reached unless the user is unknown or wants no mails, or the store or the mail sender
fails (`Reachable`). Whether anybody is told makes no difference to anything else.
-/

namespace Settlement

/-- The call hands a mail over. -/
def Call.isMail : Call → Bool
  | notify _ => true
  | _ => false

/-- The mail as the mail sender gets it. -/
def Email.bytes (email : Email) : ByteArray := email.json.text.toUTF8

namespace MemoryBroker

variable {b : MemoryBroker}

theorem publishText_of_connected (on : b.connected) (queue text : String) :
    ∃ b', b.publishText queue text = .ok b' ∧ b'.peek queue = b.peek queue ++ [text.toUTF8] := by
  have declared : b.declare queue = .ok (b.setLane queue (b.lane queue)) := if_pos on
  have same : (b.setLane queue (b.lane queue)).lane queue = b.lane queue := by
    rw [lane_setLane, if_pos rfl]
  refine ⟨_, by rw [publishText, declared]; exact if_pos on, ?_⟩
  change (((b.setLane queue (b.lane queue)).setLane queue _).lane queue).ready.map _ = _
  rw [lane_setLane, if_pos rfl, same]
  exact List.map_append

theorem publishText_of_lost (off : b.connected = false) (queue text : String) :
    b.publishText queue text = .error .reconnect := by
  simp [publishText, declare, off, bind, Except.bind]

end MemoryBroker

namespace Workflow

open Settlement.Rehearsal

/-- The mails that wait to be sent. -/
def mailbox (w : World) : List ByteArray := w.broker.peek Queue.emails

/-- A user can be told: the user is found and wants mails, and these are taken. -/
structure Reachable (w : World) (name : String) (user : User) : Prop where
  found : w.store.findUser name = some user
  wanted : user.emailEnabled
  seen : w.faults.findUser = none
  sends : w.faults.notify = none
  connected : w.broker.connected

/-- What a user is sent when the work on a message comes to an outcome. -/
structure Mailed (chain : Blockchain) (user : User) (outcome : Outcome) (sent : List Email) :
    Prop where
  addressed : ∀ m ∈ sent, m.userNames = [user.name] ∧ m.addresses = [user.email]
  confirmed : (∃ m ∈ sent, m.subject = s!"{chain.displayName} Payment Confirmed") ↔
    ∃ credits, outcome = .confirmed credits
  failed : (∃ m ∈ sent, m.subject = s!"{chain.displayName} Payment Failed") ↔
    ∃ e, outcome = .rejected (.verification e)
  coded : ∀ e, outcome = .rejected (.verification e) → ∀ m ∈ sent,
    ∃ before after, m.content = before ++ e.code ++ after
  others : (∀ credits, outcome ≠ .confirmed credits) →
    (∀ e, outcome ≠ .rejected (.verification e)) → sent = []

/-! ## One mail at most -/

/-- At most one mail has been added. -/
def OneMore (before after : List ByteArray) : Prop :=
  ∃ sent : List Email, sent.length ≤ 1 ∧ after = before ++ sent.map Email.bytes

/-- What waits to be sent, at a stage: nothing is added until there is a decision. -/
def Posted (before : List ByteArray) : Stage → List ByteArray → Prop
  | .mailed _ _, after => OneMore before after
  | .released _, after => OneMore before after
  | _, after => after = before

section

variable {w : World} {now : Instant} {before after : List ByteArray} {stage : Stage}

theorem oneMore_refl (before : List ByteArray) : OneMore before before :=
  ⟨[], Nat.zero_le _, (List.append_nil _).symm⟩

theorem Posted.oneMore (h : Posted before stage after) : OneMore before after := by
  cases stage <;> first | exact h | exact h ▸ oneMore_refl after

theorem posted_of_eq (h : after = before) : Posted before stage after := by
  subst h
  cases stage <;> first | rfl | exact oneMore_refl after

theorem mailbox_send (w : World) (email : Email) : (w.send email).world = w ∨
    (w.faults.notify = none ∧ w.broker.connected ∧
      mailbox (w.send email).world = mailbox w ++ [email.bytes]) := by
  unfold World.send
  split
  next => exact Or.inl rfl
  next taken =>
    cases on : w.broker.connected with
    | false =>
        rw [MemoryBroker.publishText_of_lost on]
        exact Or.inl rfl
    | true =>
        obtain ⟨b, hb, hpeek⟩ :=
          MemoryBroker.publishText_of_connected on Queue.emails email.json.text
        rw [hb]
        exact Or.inr ⟨taken, rfl, hpeek⟩

theorem broker_ofStore {α : Type} (w : World) (fault : Option String)
    (result : Except StoreError α × Store) :
    (w.ofStore fault result).world.broker = w.broker := by
  cases fault <;> rfl

theorem mailbox_answer (w : World) (now : Instant) {call : Call} (unmailed : call.isMail = false) :
    mailbox (w.answer now call).world = mailbox w := by
  have kept : (w.answer now call).world.broker = w.broker := by
    cases call with
    | notify email => cases unmailed
    | acquire key ttl =>
        simp only [World.answer]
        split <;> rfl
    | release lease =>
        simp only [World.answer]
        split <;> rfl
    | ethereum query => rfl
    | dash query => rfl
    | bitcoinCash query => rfl
    | _ => exact broker_ofStore w _ _
  rw [mailbox, kept, mailbox]

theorem oneMore_answer (w : World) (now : Instant) (call : Call) :
    OneMore (mailbox w) (mailbox (w.answer now call).world) := by
  cases hcall : call.isMail with
  | false =>
      rw [mailbox_answer w now hcall]
      exact oneMore_refl _
  | true =>
      cases call with
      | notify email =>
          rcases mailbox_send w email with h | ⟨-, -, h⟩
          · have kept : (w.answer now (.notify email)).world = w := h
            rw [kept]
            exact oneMore_refl _
          · exact ⟨[email], Nat.le_refl _, h⟩
      | _ => cases hcall

variable {N : Type} {t : Errand N} {v : Verifier} {body : ByteArray}

theorem unmailed_of_weighed {call : Call} (h : call.isWeighed) : call.isMail = false := by
  cases call <;> first | rfl | cases h

theorem conclude_asks (lease : Lease) (d : Decision) :
    (conclude lease d).Asks (·.isMail = false) := by
  obtain ⟨outcome, _ | ⟨payment, notice⟩⟩ := d <;> rfl

/-- The stage at which mails are sent. -/
def sendsMail : Stage → Bool
  | .mailing _ _ _ _ => true
  | _ => false

theorem turn_asks_unmailed (v : Verifier) (body : ByteArray) (now : Instant) (stage : Stage)
    (other : sendsMail stage = false) : (turn v body now stage).Asks (·.isMail = false) := by
  have under : ∀ request lease (p : Progress),
      (turn v body now (p.stage request lease)).Asks (·.isMail = false) := by
    intro request lease p
    rw [turn_stage]
    refine Turn.asks_within ?_ (conclude_asks lease)
    exact (deliberate_asks v request now p).imp fun _ => unmailed_of_weighed
  cases stage with
  | received =>
      rcases receive_cases v body with ⟨outcome, h⟩ | ⟨-, h⟩ | ⟨request, ttl, -, h⟩
      all_goals
        rw [turn, h]
        trivial
  | leased request r =>
      rcases r with e | _ | lease
      · trivial
      · trivial
      · exact under request lease .leased
  | found request lease r => exact under request lease (.found r)
  | verifying request lease payment s => exact under request lease (.verifying payment s)
  | confirmed lease payment r => exact under default lease (.confirmed payment r)
  | credited lease payment r => exact under default lease (.credited payment r)
  | mailing lease outcome notice r => cases other
  | mailed lease outcome => rfl
  | released outcome => trivial

variable {x y : Point Call Call.Reply (N × World) Stage}

theorem mailbox_errand (t : Errand N) (now : Instant) (call : Call) (w : N × World) :
    OneMore (mailbox w.2) (mailbox (t.answer now call w).world.2) ∧
      (call.isMail = false → mailbox (t.answer now call w).world.2 = mailbox w.2) := by
  unfold Errand.answer beside
  split
  · exact ⟨oneMore_refl _, fun _ => rfl⟩
  · exact ⟨oneMore_answer w.2 now call, mailbox_answer w.2 now⟩

/-- Mail is taken to be sent at one stage, and the next turn is the last but one. -/
theorem leads_mailing {lease : Lease} {outcome : Outcome} {notice : Notice}
    {r : Except StoreError (Option User)} {asked : List Contact} {next : Stage}
    (h : (turn v body now (.mailing lease outcome notice r)).Leads asked next) :
    next = .mailed lease outcome ∨ next = .released outcome := by
  have finished : (finish lease outcome).Leads asked next →
      next = .mailed lease outcome ∨ next = .released outcome := by
    intro h
    obtain ⟨_, -, rfl⟩ := Turn.leads_ask.1 h
    exact Or.inr rfl
  rcases r with e | _ | user
  · exact finished h
  · exact finished h
  · simp only [turn] at h
    split at h
    next =>
      obtain ⟨_, -, rfl⟩ := Turn.leads_ask.1 h
      exact Or.inl rfl
    next => exact finished h

theorem Posted.next (posted : Posted before x.stage (mailbox x.world.2))
    (step : t.machine.after? t.cancelAt x = some y) :
    Posted before y.stage (mailbox y.world.2) := by
  obtain ⟨asked, leads, more, same⟩ : ∃ asked,
      (turn t.verifier t.body x.instant x.stage).Leads asked y.stage ∧
      OneMore (mailbox x.world.2) (mailbox y.world.2) ∧
      ((turn t.verifier t.body x.instant x.stage).Asks (·.isMail = false) →
        mailbox y.world.2 = mailbox x.world.2) := by
    rcases Machine.world_of_after step with ⟨call, leads, hworld⟩ | ⟨leads, hworld⟩
    · rw [hworld]
      have answer := mailbox_errand t x.instant call x.world
      refine ⟨_, leads, answer.1, fun asks => answer.2 ?_⟩
      exact Turn.asked_of_leads leads asks _ (List.mem_singleton_self _)
    · rw [hworld]
      exact ⟨_, leads, oneMore_refl _, fun _ => rfl⟩
  -- At any other stage the mails stay as they are, so what held of them holds after the turn.
  have kept : sendsMail x.stage = false → mailbox y.world.2 = mailbox x.world.2 :=
    fun other => same (turn_asks_unmailed _ _ _ _ other)
  generalize x.stage = stage at posted leads kept
  cases stage with
  | mailing lease outcome notice r =>
      have hbefore : mailbox x.world.2 = before := posted
      rw [hbefore] at more
      rcases leads_mailing leads with h | h
      all_goals
        rw [h]
        exact more
  | mailed lease outcome =>
      obtain ⟨_, -, h⟩ := Turn.leads_ask.1 leads
      rw [h, kept rfl]
      exact posted
  | released outcome => exact leads.elim
  | _ => exact posted_of_eq ((kept rfl).trans posted)

/-- Wherever the work has come to, one mail has been sent at most. -/
theorem posted_of_comes {now : Instant} {w : N × World}
    (comes : t.machine.Comes t.cancelAt ⟨now, w, .received, []⟩ y) :
    Posted (mailbox w.2) y.stage (mailbox y.world.2) := by
  induction comes with
  | refl => rfl
  | tail _ step ih => exact ih.next step

end

/-! ## Who is told -/

section

variable {N : Type} {t : Errand N} {w v : World} {now later : Instant} {request : Request}
  {payment : Payment} {notice : Notice} {outcome : Outcome} {name : String} {user : User}
  {lease : Lease} {d : Decision} {s : Store} {g : LockTable} {e : ConfirmationError}

theorem mailbox_giveBack (w : World) (lease : Lease) : mailbox (giveBack w lease) = mailbox w := by
  unfold giveBack
  split <;> rfl

/-- A user is as reachable when balances and locks have changed. -/
theorem Reachable.over (reachable : Reachable w name user) (contacts : s.SameContacts w.store) :
    ∃ user', Reachable { w with store := s, locks := g } name user' ∧
      Store.contact user' = Store.contact user := by
  have same := contacts name
  rw [reachable.found, Option.map_some] at same
  obtain ⟨user', hfound, hcontact⟩ := Option.map_eq_some_iff.1 same
  have hwants : user'.emailEnabled = user.emailEnabled :=
    (congrArg User.emailEnabled hcontact :)
  exact ⟨user', ⟨hfound, hwants.trans reachable.wanted, reachable.seen, reachable.sends,
    reachable.connected⟩, hcontact⟩

theorem toUser_of_contact {user' : User} (h : Store.contact user' = Store.contact user)
    (subject content : String) :
    Email.toUser user' subject content = Email.toUser user subject content := by
  have hname : user'.name = user.name := (congrArg User.name h :)
  have hemail : user'.email = user.email := (congrArg User.email h :)
  rw [Email.toUser, Email.toUser, hname, hemail]

/-- Who can be reached is told. -/
theorem mailbox_tell_reachable (reachable : Reachable w payment.user user) :
    mailbox (Decision.tell ⟨outcome, some (payment, notice)⟩ w) =
      mailbox w ++ [(Email.toUser user notice.subject notice.content).bytes] := by
  obtain ⟨found, wanted, seen, sends, connected⟩ := reachable
  have reply : userReply w payment.user = .ok (some user) := by
    rw [userReply, seen, ← found]
  have told : Decision.tell ⟨outcome, some (payment, notice)⟩ w =
      (w.send (.toUser user notice.subject notice.content)).world := by
    simp [Decision.tell, reply, wanted]
  obtain ⟨b, hb, hpeek⟩ := MemoryBroker.publishText_of_connected connected Queue.emails
    (Email.toUser user notice.subject notice.content).json.text
  rw [told, World.send, sends]
  dsimp only
  rw [hb]
  exact hpeek

/-- Nobody is told who cannot be reached. -/
theorem tell_unreachable (unreachable : ∀ user, ¬Reachable w payment.user user) :
    Decision.tell ⟨outcome, some (payment, notice)⟩ w = w := by
  unfold Decision.tell
  dsimp only
  split
  next user reply =>
    split
    next wanted =>
      rcases mailbox_send w (.toUser user notice.subject notice.content) with h | ⟨sends, on, -⟩
      · exact h
      · refine absurd ⟨?_, wanted, ?_, sends, on⟩ (unreachable user)
        · unfold userReply at reply
          split at reply
          · exact Except.ok.inj reply
          · cases reply
        · unfold userReply at reply
          split at reply
          next seen => exact seen
          next => cases reply
    next => rfl
  next => rfl

/-- Under the lock the reach of a user does not change. -/
theorem reachable_or (w : World) (payment : Payment) (g : LockTable) (lease : Lease)
    (contacts : s.SameContacts w.store) :
    (∃ user, Reachable w payment.user user ∧
      ∀ (d : Decision) (notice : Notice), d.mail = some (payment, notice) →
        mailbox (giveBack (d.tell { w with store := s, locks := g }) lease) =
          mailbox w ++ [(Email.toUser user notice.subject notice.content).bytes]) ∨
    (∀ user, ¬Reachable w payment.user user) ∧
      ∀ (d : Decision) (notice : Notice), d.mail = some (payment, notice) →
        mailbox (giveBack (d.tell { w with store := s, locks := g }) lease) = mailbox w := by
  by_cases reachable : ∃ user, Reachable w payment.user user
  · obtain ⟨user, reachable⟩ := reachable
    obtain ⟨user', still, contact⟩ := reachable.over (g := g) contacts
    refine Or.inl ⟨user, reachable, ?_⟩
    rintro ⟨outcome, _⟩ notice rfl
    rw [mailbox_giveBack, mailbox_tell_reachable still, toUser_of_contact contact]
    rfl
  · refine Or.inr ⟨fun user h => reachable ⟨user, h⟩, ?_⟩
    rintro ⟨outcome, _⟩ notice rfl
    have unreachable :
        ∀ user, ¬Reachable { w with store := s, locks := g } payment.user user := by
      intro user h
      obtain ⟨user', still, -⟩ := h.over (s := w.store) (g := w.locks) contacts.symm
      exact reachable ⟨user', still⟩
    rw [mailbox_giveBack, tell_unreachable unreachable]
    rfl

/-- What is sent when the work comes to an outcome: one mail at most, to the user who asks, and none
where that user cannot be reached. -/
def Tells (t : Errand N) (w : World) (outcome : Outcome) (v : World) : Prop :=
  ∃ sent : List Email, sent.length ≤ 1 ∧ mailbox v = mailbox w ++ sent.map Email.bytes ∧
    (∀ request user, Request.ofBody? t.verifier.chain t.body = .ok request →
      Reachable w request.user user → Mailed t.verifier.chain user outcome sent) ∧
    ((∀ request user, Request.ofBody? t.verifier.chain t.body = .ok request →
      ¬Reachable w request.user user) → sent = [])

theorem tells_nobody (unconfirmed : ∀ credits, outcome ≠ .confirmed credits)
    (other : ∀ e, outcome ≠ .rejected (.verification e)) (same : mailbox v = mailbox w) :
    Tells t w outcome v := by
  refine ⟨[], Nat.zero_le _, same.trans (List.append_nil _).symm, fun _ _ _ _ => ?_, fun _ => rfl⟩
  exact ⟨nofun, by simp [unconfirmed], by simp [other], fun e h => absurd h (other e),
    fun _ _ => rfl⟩

theorem tells_user (read : Request.ofBody? t.verifier.chain t.body = .ok request)
    (own : payment.user = request.user) (mail : d.mail = some (payment, notice))
    (contacts : s.SameContacts w.store) (mailed : ∀ user, Mailed t.verifier.chain user d.outcome
      [.toUser user notice.subject notice.content]) :
    Tells t w d.outcome (giveBack (d.tell { w with store := s, locks := g }) lease) := by
  rcases reachable_or w payment g lease contacts with ⟨user, reachable, told⟩ | ⟨unreachable, untold⟩
  · refine ⟨[.toUser user notice.subject notice.content], Nat.le_refl 1, told d notice mail, ?_,
      fun h => ?_⟩
    · intro request' user' read' reachable'
      obtain rfl := Except.ok.inj (read.symm.trans read')
      rw [own] at reachable
      obtain rfl := Option.some.inj (reachable.found.symm.trans reachable'.found)
      exact mailed user
    · exact absurd (own ▸ reachable) (h request user read)
  · refine ⟨[], Nat.zero_le _, (untold d notice mail).trans (List.append_nil _).symm, ?_,
      fun _ => rfl⟩
    intro request' user' read' reachable'
    obtain rfl := Except.ok.inj (read.symm.trans read')
    exact absurd (own ▸ reachable') (unreachable user')

/-! ## What the mails say -/

theorem subject_ne (chain : Blockchain) :
    s!"{chain.displayName} Payment Confirmed" ≠ s!"{chain.displayName} Payment Failed" := by
  cases chain <;> decide

theorem content_failure (payment : Payment) (e : ConfirmationError) :
    ∃ before after, (Notice.failure payment e).content = before ++ e.code ++ after := by
  unfold Notice.failure
  dsimp only
  split
  next => exact ⟨_, ")", by rw [← String.append_assoc, ← String.append_assoc]; rfl⟩
  next => exact ⟨_, ")", by rw [← String.append_assoc, ← String.append_assoc]; rfl⟩

theorem mailed_failed {chain : Blockchain} (own : payment.chain = chain) (user : User) :
    Mailed chain user (Decision.failed payment e).outcome
      [.toUser user (Notice.failure payment e).subject (Notice.failure payment e).content] := by
  subst own
  refine ⟨?_, ?_, ?_, ?_, fun _ other => absurd rfl (other e)⟩
  · simp [Email.toUser]
  · simpa [Email.toUser, Notice.failure, Decision.failed] using (subject_ne payment.chain).symm
  · simp [Email.toUser, Notice.failure, Decision.failed]
  · rintro e' h m hm
    obtain rfl : e = e' := by simpa [Decision.failed] using h
    rw [List.mem_singleton.1 hm]
    exact content_failure payment e

theorem mailed_granted {chain : Blockchain} (own : payment.chain = chain) (user : User) :
    Mailed chain user (Decision.granted payment).outcome
      [.toUser user (Notice.success payment).subject (Notice.success payment).content] := by
  subst own
  refine ⟨?_, ?_, ?_, nofun, fun unconfirmed => absurd rfl (unconfirmed payment.credits)⟩
  · simp [Email.toUser]
  · simp [Email.toUser, Notice.success, Decision.granted]
  · simpa [Email.toUser, Notice.success, Decision.granted] using subject_ne payment.chain

/-! ## What depends on the mails -/

/-- The worlds are the same but for the mails: in one of them users may not be found, or mails not
be taken, and other mails may wait. -/
structure ApartFromMails (w v : World) : Prop where
  store : v.store = w.store
  locks : v.locks = w.locks
  faults : { v.faults with findUser := none, notify := none } =
    { w.faults with findUser := none, notify := none }

namespace ApartFromMails

theorem acquire (apart : ApartFromMails w v) : v.faults.acquire = w.faults.acquire :=
  (congrArg Faults.acquire apart.faults :)

theorem release (apart : ApartFromMails w v) : v.faults.release = w.faults.release :=
  (congrArg Faults.release apart.faults :)

theorem decisive (apart : ApartFromMails w v) :
    Workflow.decisive v.faults = Workflow.decisive w.faults :=
  (congrArg Workflow.decisive apart.faults :)

/-- What becomes of a message is the same, but for the mails. -/
theorem fate {n : N} {w' : N × World} (apart : ApartFromMails w v)
    (fate : t.Fate now (n, w) outcome later w') : ∃ v', t.Fate now (n, v) outcome later (w'.1, v') ∧
      v'.store = w'.2.store ∧ v'.locks = w'.2.locks := by
  cases fate with
  | illegible turn => exact ⟨v, .illegible turn, apart.store, apart.locks⟩
  | unlocked reads refused =>
      refine ⟨v, .unlocked reads fun reached => ?_, apart.store, apart.locks⟩
      rw [apart.locks]
      exact refused (apart.acquire ▸ reached)
  | @decided request ttl lease d later n' s reads reached granted decides =>
      have granted' : (v.locks.acquire now (t.key request) ttl).1 = some lease := by
        rw [apart.locks]
        exact granted
      have decides' : t.Decides now (n, v) request d later (n', s) := by
        unfold Errand.Decides
        rw [apart.decisive, apart.store]
        exact decides
      refine ⟨_, .decided reads (apart.acquire.trans reached) granted' decides', ?_, ?_⟩
      · rw [store_left, store_left]
      · rw [locks_left, locks_left, apart.locks, apart.release]

end ApartFromMails

theorem tells_of_fate {n : N} {w' : N × World} (fate : t.Fate now (n, w) outcome later w') :
    Tells t w outcome w'.2 := by
  cases fate with
  | illegible turn =>
      obtain ⟨reason, rfl, other⟩ := rejected_of_receive turn
      exact tells_nobody nofun (fun e h => other e (Outcome.rejected.inj h)) rfl
  | unlocked reads refused => exact tells_nobody nofun nofun rfl
  | @decided request ttl lease d later n s reads reached granted decides =>
      have justified := justified_of_decides decides
      dsimp only at justified ⊢
      cases justified with
      | silent unconfirmed other kept =>
          exact tells_nobody unconfirmed other (mailbox_giveBack _ _)
      | @failed payment e fits other =>
          have fits := fits_of_refusal fits
          exact tells_user reads.read fits.user rfl (.refl _) (mailed_failed fits.chain)
      | @granted payment _ fits contacts =>
          have fits := fits_of_refusal fits
          exact tells_user reads.read fits.user rfl contacts (mailed_granted fits.chain)

/-- Whatever fails on the way, the work on a message has sent one mail at most wherever it has come
to. When it comes to an outcome, the user of the payment has been told, if that user can be
reached, exactly that the payment is confirmed or that it failed on its chain, with the code of the
error, which is never that of a cancellation; nobody is told of any other outcome. Neither the
outcome nor the store nor the locks depend on whether the user can be told. -/
theorem one_mail_at_most (t : Errand N) (now : Instant) (n : N) (w : World) :
    (∀ y, t.machine.Comes t.cancelAt ⟨now, (n, w), .received, []⟩ y →
      ∃ sent : List Email, sent.length ≤ 1 ∧
        mailbox y.world.2 = mailbox w ++ sent.map Email.bytes) ∧
    (∀ outcome later w', t.Ends now (n, w) outcome later w' →
      outcome ≠ .rejected (.verification .cancelled) ∧ Tells t w outcome w'.2) ∧
    ∀ v, ApartFromMails w v → ∀ outcome later w', t.Ends now (n, w) outcome later w' →
      ∃ v', t.Ends now (n, v) outcome later (w'.1, v') ∧ v'.store = w'.2.store ∧
        v'.locks = w'.2.locks := by
  refine ⟨fun y comes => (posted_of_comes comes).oneMore, fun outcome later w' ends => ?_,
    fun v apart outcome later w' ends => ?_⟩
  · have fate := ends_iff.1 ends
    exact ⟨fate.not_cancelled, tells_of_fate fate⟩
  · obtain ⟨v', fate, same⟩ := apart.fate (ends_iff.1 ends)
    exact ⟨v', ends_iff.2 fate, same⟩

end

namespace Told

/-- A user who wants mails owes a payment. -/
def world : World :=
  ⟨.empty, ⟨[Sample.dashPayment 1 "invoice"],
    [⟨"alice", "alice@example.com", true, ⟨0, 0⟩⟩], []⟩, .empty, .empty, .none⟩

/-- The same, but no mail is taken. -/
def silenced : World := { world with faults := { Faults.none with notify := some "full" } }

def errand : Errand Node := Sample.errand none

theorem ends : errand.Ends 0 (Sample.dashNode, world) (.confirmed ⟨20, 0⟩)
    (errand.last 0 (Sample.dashNode, world)).instant
    (errand.last 0 (Sample.dashNode, world)).world :=
  Errand.ends_last (by decide +kernel)

end Told

open Told in
/-- A payment is confirmed, and its user is told so, once; if mails are not taken, it is confirmed
all the same. -/
theorem one_mail_at_most_told : ∃ w', errand.Ends 0 (Sample.dashNode, world) (.confirmed ⟨20, 0⟩)
      (errand.last 0 (Sample.dashNode, world)).instant w' ∧
    (∃ m : Email, mailbox w'.2 = [m.bytes] ∧ m.subject = "DASH Payment Confirmed" ∧
      m.addresses = ["alice@example.com"]) ∧
    ∃ v', errand.Ends 0 (Sample.dashNode, silenced) (.confirmed ⟨20, 0⟩)
      (errand.last 0 (Sample.dashNode, world)).instant (w'.1, v') ∧ v'.store = w'.2.store := by
  obtain ⟨-, told, apart⟩ := one_mail_at_most errand 0 Sample.dashNode world
  obtain ⟨-, sent, few, hmailbox, mailed, -⟩ := told _ _ _ ends
  have read : Request.ofBody? errand.verifier.chain errand.body =
      .ok (.dash ⟨1, "alice", "forward", 1⟩) := by decide +kernel
  have mailed := mailed _ ⟨"alice", "alice@example.com", true, ⟨0, 0⟩⟩ read
    ⟨by decide, rfl, rfl, rfl, rfl⟩
  obtain ⟨m, hm, subject⟩ := mailed.confirmed.2 ⟨_, rfl⟩
  obtain ⟨v', ends', store, -⟩ := apart silenced ⟨rfl, rfl, rfl⟩ _ _ _ ends
  refine ⟨_, ends, ⟨m, ?_, subject, (mailed.addressed m hm).2⟩, v', ends', store⟩
  obtain ⟨m', rfl⟩ := List.length_eq_one_iff.1
    (Nat.le_antisymm few (List.length_pos_of_mem hm))
  rw [hmailbox, List.mem_singleton.1 hm]
  rfl

end Workflow

end Settlement
