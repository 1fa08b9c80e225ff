import Settlement.Proofs.Ending
import Settlement.Proofs.Workflow.Deliberation
import Settlement.Proofs.Workflow.Judgement
import Settlement.Rehearsal.World

/-!
# A message, from its delivery to its outcome

A message is worked on once, in a world in which any call may be made to fail, beside a chain that
answers in any way, and with a cancellation at any time or none (`Errand`). What becomes of it is
put together from three parts (`ends_iff`): the lock is taken or not; under the lock a decision is
come to, to which neither the locks nor the mails matter; and what is done with the decision takes
no time, so the world that it leaves can be written down.
-/

namespace Settlement.Workflow

open Settlement.Rehearsal

/-- A chain beside other collaborators, which do not share its state. -/
def beside {N W : Type} (chain : Instant → (call : Call) → N → Answer N call.Reply)
    (here : Instant → (call : Call) → W → Answer W call.Reply) (now : Instant) (call : Call)
    (w : N × W) : Answer (N × W) call.Reply :=
  if call.isRemote then (chain now call w.1).over fun n => (n, w.2)
  else (here now call w.2).over fun u => (w.1, u)

/-- A message for a verifier, what the chain answers, and the instant at which the work on the
message is cancelled, if at one. -/
structure Errand (N : Type) where
  verifier : Verifier
  body : ByteArray
  chain : Instant → (call : Call) → N → Answer N call.Reply
  cancelAt : Option Instant

/-- Only those calls fail that bear on the decision. -/
def decisive (faults : Faults) : Faults :=
  { faults with findUser := none, acquire := none, release := none, notify := none }

/-- A world of which only the store matters. -/
def shop (faults : Faults) (s : Store) : World := ⟨.empty, s, .empty, .empty, faults⟩

/-- What a look at a user gives. -/
def userReply (w : World) (name : String) : Except StoreError (Option User) :=
  match w.faults.findUser with
  | none => .ok (w.store.findUser name)
  | some text => .error (.corrupt text)

/-- The world after the mail about a decision. -/
def Decision.tell (d : Decision) (w : World) : World :=
  match d.mail with
  | none => w
  | some (payment, notice) =>
    match userReply w payment.user with
    | .ok (some user) =>
      if user.emailEnabled then (w.send (.toUser user notice.subject notice.content)).world else w
    | _ => w

/-- The world after a lease was to be given back. -/
def giveBack (w : World) (lease : Lease) : World :=
  match w.faults.release with
  | none => { w with locks := w.locks.release lease }
  | some _ => w

namespace Errand

variable {N : Type} (t : Errand N)

/-- The key of the payment that a request is for. -/
def key (request : Request) : String :=
  lockKey t.verifier.chain.name request.user request.number

def answer : Instant → (call : Call) → N × World → Answer (N × World) call.Reply :=
  beside t.chain fun now call w => w.answer now call

abbrev machine : Machine Call Call.Reply (N × World) Stage Outcome :=
  work t.verifier t.body t.answer

/-- The way to a decision. -/
abbrev counsel (request : Request) :
    Machine Call Call.Reply (N × World) Progress Decision :=
  ⟨deliberate t.verifier request, t.answer⟩

/-- The way to a decision, over nothing but the store. -/
def deliberation (faults : Faults) (request : Request) :
    Machine Call Call.Reply (N × Store) Progress Decision where
  turn := deliberate t.verifier request
  answer := beside t.chain fun now call s => ((shop faults s).answer now call).over World.store

/-- Begun at `now` in the world `w`, the work comes to an outcome, at an instant and in a world. -/
def Ends (now : Instant) (w : N × World) (outcome : Outcome) (later : Instant) (w' : N × World) :
    Prop :=
  t.machine.Closes t.cancelAt ⟨now, w, .received, []⟩ (some outcome) later w'

/-- From the grant of the lock on, a decision is come to, at an instant and with this store. -/
def Decides (now : Instant) (w : N × World) (request : Request) (d : Decision) (later : Instant)
    (u : N × Store) : Prop :=
  (t.deliberation (decisive w.2.faults) request).Closes t.cancelAt
    ⟨now, (w.1, w.2.store), .leased, []⟩ (some d) later u

/-- The message is one for the payment of a request, and its lock is asked for. -/
structure Reads (request : Request) (ttl : Duration) : Prop where
  read : Request.ofBody? t.verifier.chain t.body = .ok request
  turn : receive t.verifier t.body = .ask (.acquire (t.key request) ttl) none (.leased request)

/-- What may become of a message. -/
inductive Fate (now : Instant) (w : N × World) : Outcome → Instant → N × World → Prop
  | illegible {outcome : Outcome} (turn : receive t.verifier t.body = .done outcome) :
      Fate now w outcome now w
  | unlocked {request : Request} {ttl : Duration} (reads : t.Reads request ttl)
      (refused : w.2.faults.acquire = none →
        (w.2.locks.acquire now (t.key request) ttl).1 = none) : Fate now w .abandoned now w
  | decided {request : Request} {ttl : Duration} {lease : Lease} {d : Decision} {later : Instant}
      {n : N} {s : Store} (reads : t.Reads request ttl) (reached : w.2.faults.acquire = none)
      (granted : (w.2.locks.acquire now (t.key request) ttl).1 = some lease)
      (decides : t.Decides now w request d later (n, s)) :
      Fate now w d.outcome later (n, giveBack (d.tell { w.2 with
        store := s, locks := (w.2.locks.acquire now (t.key request) ttl).2 }) lease)

end Errand

/-! ## What is done with a decision -/

section

variable {N : Type} {t : Errand N} {z : Point Call Call.Reply (N × World) Stage}
  {o outcome : Outcome} {lease : Lease} {d : Decision} {instant : Instant} {w' : N × World}

theorem answer_here (call : Call) (here : call.isRemote = false) {now : Instant} {w : N × World}
    {a : Answer World call.Reply} (h : w.2.answer now call = a) :
    t.answer now call w = a.over fun u => (w.1, u) := by
  rw [Errand.answer, beside, if_neg (Bool.eq_false_iff.1 here), h]

theorem release_answer (w : World) (now : Instant) (lease : Lease) :
    ∃ r, w.answer now (.release lease) = ⟨r, ⟨0⟩, giveBack w lease⟩ := by
  unfold giveBack
  simp only [World.answer]
  split
  next h =>
    rw [h]
    exact ⟨_, rfl⟩
  next h =>
    rw [h]
    exact ⟨_, rfl⟩

theorem closes_finish (turn : t.machine.turn z.instant z.stage = finish lease o) :
    t.machine.Closes t.cancelAt z (some outcome) instant w' ↔
      outcome = o ∧ instant = z.instant ∧ w' = (z.world.1, giveBack z.world.2 lease) := by
  obtain ⟨r, hr⟩ := release_answer z.world.2 z.instant lease
  have answer := answer_here (t := t) (.release lease) rfl hr
  rw [Machine.closes_iff_of_ask turn answer, Machine.closes_iff_of_done rfl, Option.some.injEq]

theorem findUser_answer (w : World) (now : Instant) (name : String) :
    w.answer now (.findUser name) = ⟨userReply w name, ⟨0⟩, w⟩ := by
  change w.ofStore w.faults.findUser (.ok (w.store.findUser name), w.store) = _
  unfold World.ofStore userReply
  cases w.faults.findUser <;> rfl

theorem notify_answer (w : World) (now : Instant) (email : Email) :
    ∃ r, w.answer now (.notify email) = ⟨r, ⟨0⟩, (w.send email).world⟩ := by
  change ∃ r, w.send email = _
  unfold World.send
  split
  · exact ⟨_, rfl⟩
  · split <;> exact ⟨_, rfl⟩

theorem send_eq (w : World) (email : Email) :
    ∃ broker, (w.send email).world = { w with broker := broker } := by
  unfold World.send
  split
  · exact ⟨w.broker, rfl⟩
  · split
    next broker _ => exact ⟨broker, rfl⟩
    next => exact ⟨w.broker, rfl⟩

/-- A mail is no matter of the store or the locks. -/
theorem Decision.tell_eq (d : Decision) (w : World) :
    ∃ broker, d.tell w = { w with broker := broker } := by
  unfold tell
  split
  · exact ⟨w.broker, rfl⟩
  · split
    · split
      · exact send_eq w _
      · exact ⟨w.broker, rfl⟩
    · exact ⟨w.broker, rfl⟩

theorem store_left (d : Decision) (w : World) (lease : Lease) :
    (giveBack (d.tell w) lease).store = w.store := by
  obtain ⟨broker, h⟩ := d.tell_eq w
  rw [h]
  unfold giveBack
  split <;> rfl

theorem locks_left (d : Decision) (w : World) (lease : Lease) :
    (giveBack (d.tell w) lease).locks =
      if w.faults.release = none then w.locks.release lease else w.locks := by
  obtain ⟨broker, h⟩ := d.tell_eq w
  rw [h]
  unfold giveBack
  dsimp only
  cases w.faults.release <;> rfl

/-- The mail and the lock take no time. -/
theorem closes_conclude (turn : t.machine.turn z.instant z.stage = conclude lease d) :
    t.machine.Closes t.cancelAt z (some outcome) instant w' ↔
      outcome = d.outcome ∧ instant = z.instant ∧
        w' = (z.world.1, giveBack (d.tell z.world.2) lease) := by
  obtain ⟨o, _ | ⟨payment, notice⟩⟩ := d
  · exact closes_finish turn
  · have lookup := answer_here (t := t) (.findUser payment.user) rfl
      (findUser_answer z.world.2 z.instant payment.user)
    rw [Machine.closes_iff_of_ask turn lookup]
    unfold Decision.tell
    dsimp only
    rcases userReply z.world.2 payment.user with e | _ | user
    · exact closes_finish rfl
    · exact closes_finish rfl
    · dsimp only
      split
      next wanted =>
        obtain ⟨r, hr⟩ := notify_answer z.world.2 z.instant
          (.toUser user notice.subject notice.content)
        have sent := answer_here (t := t) (.notify _) rfl hr
        rw [Machine.closes_iff_of_ask (if_pos wanted) sent]
        exact closes_finish rfl
      next unwanted => exact closes_finish (if_neg unwanted)

end

/-! ## What is done under the lock -/

section

variable {N : Type} {t : Errand N} {now later : Instant} {w w' : N × World} {outcome : Outcome}
  {request : Request} {ttl : Duration} {lease : Lease} {d : Decision} {u : N × Store}

theorem ofStore_shop {α : Type} (w : World) (fault : Option String)
    (result : Except StoreError α × Store) (s : Store) :
    ({ w with store := s }).ofStore fault result =
      (((shop (decisive w.faults) s).ofStore fault result).over World.store).over
        fun s => { w with store := s } := by
  cases fault <;> rfl

/-- What bears on the decision is answered from the store, and leaves the rest of the world as it
is. -/
theorem answer_shop (w : World) (now : Instant) {call : Call} (weighed : call.isWeighed)
    (here : call.isRemote = false) (s : Store) : ({ w with store := s }).answer now call =
      (((shop (decisive w.faults) s).answer now call).over World.store).over
        fun s => { w with store := s } := by
  cases call with
  | findPayment user number => exact ofStore_shop w _ _ s
  | confirmPayment hash => exact ofStore_shop w _ _ s
  | addCredits user amount => exact ofStore_shop w _ _ s
  | findAddress user => exact ofStore_shop w _ _ s
  | ethereum query => cases here
  | dash query => cases here
  | bitcoinCash query => cases here
  | _ => cases weighed

/-- Neither locks nor mails matter on the way to a decision. -/
theorem embeds_deliberation (t : Errand N) (w : World) (request : Request) :
    Machine.Embeds (t.deliberation (decisive w.faults) request) (t.counsel request)
      fun u : N × Store => (u.1, { w with store := u.2 }) where
  turn _ _ := rfl
  answer now p u := by
    refine (deliberate_asks t.verifier request now p).imp fun call weighed => ?_
    cases remote : call.isRemote with
    | true =>
        simp only [Errand.answer, Errand.deliberation, beside, remote, if_true]
        rfl
    | false =>
        simp only [Errand.answer, Errand.deliberation, beside, remote, Bool.false_eq_true, if_false]
        rw [answer_shop w now weighed remote]
        rfl

/-- Once the lock is taken, a decision is come to, and what is done with it ends the work. -/
theorem closes_leased (log : List (Entry Call Call.Reply)) :
    t.machine.Closes t.cancelAt ⟨now, w, .leased request (.ok (some lease)), log⟩ (some outcome)
        later w' ↔
      ∃ d u, t.Decides now w request d later u ∧ outcome = d.outcome ∧
        w' = (u.1, giveBack (d.tell { w.2 with store := u.2 }) lease) := by
  have hosts : Machine.Hosts (Q := Call.Reply) id (t.counsel request) t.machine
      (Progress.stage request lease) (conclude lease) log ⟨now, w, .leased, []⟩
      ⟨now, w, .leased request (.ok (some lease)), log⟩ :=
    ⟨rfl, rfl, turn_stage t.verifier t.body now request lease .leased, rfl⟩
  have whole : t.machine.Closes t.cancelAt ⟨now, w, .leased request (.ok (some lease)), log⟩
      (some outcome) later w' ↔
        ∃ d i v, (t.counsel request).Closes t.cancelAt ⟨now, w, .leased, []⟩ (some d) i v ∧
          outcome = d.outcome ∧ later = i ∧ w' = (v.1, giveBack (d.tell v.2) lease) :=
    hosts.closes_iff (fun _ _ _ => rfl)
      (fun now p => turn_stage t.verifier t.body now request lease p)
      fun _ _ turn => closes_conclude turn
  have part : ∀ d i v, (t.counsel request).Closes t.cancelAt ⟨now, w, .leased, []⟩ (some d) i v ↔
      ∃ u, t.Decides now w request d i u ∧ v = (u.1, { w.2 with store := u.2 }) := by
    intro d i v
    exact (embeds_deliberation t w.2 request).closes_iff
      (x := ⟨now, (w.1, w.2.store), .leased, []⟩)
  rw [whole]
  constructor
  · rintro ⟨d, _, v, closes, rfl, rfl, rfl⟩
    obtain ⟨u, decides, rfl⟩ := (part d _ v).1 closes
    exact ⟨d, u, decides, rfl, rfl⟩
  · rintro ⟨d, u, decides, rfl, rfl⟩
    exact ⟨d, _, _, (part d _ _).2 ⟨u, decides, rfl⟩, rfl, rfl, rfl⟩

theorem store_ofStore {α : Type} (w : World) (fault : Option String)
    (result : Except StoreError α × Store) :
    (w.ofStore fault result).world.store = w.store ∨
      (w.ofStore fault result).world.store = result.2 := by
  cases fault with
  | none => exact Or.inr rfl
  | some text => exact Or.inl rfl

/-- Only bookings change the store. -/
theorem store_answer (w : World) (now : Instant) {call : Call} (unbooked : call.isBooking = false) :
    (w.answer now call).world.store = w.store := by
  cases call with
  | confirmPayment hash => cases unbooked
  | addCredits user amount => cases unbooked
  | findPayment user number => exact (or_self_iff.1 (store_ofStore w _ _))
  | findAddress user => exact (or_self_iff.1 (store_ofStore w _ _))
  | findUser user => exact (or_self_iff.1 (store_ofStore w _ _))
  | acquire key ttl =>
      simp only [World.answer]
      split <;> rfl
  | release lease =>
      simp only [World.answer]
      split <;> rfl
  | notify email =>
      obtain ⟨r, hr⟩ := notify_answer w now email
      rw [hr]
      unfold World.send
      split
      · rfl
      · split <;> rfl
  | _ => rfl

theorem sameContacts_answer (w : World) (now : Instant) (call : Call) :
    (w.answer now call).world.store.SameContacts w.store := by
  cases hcall : call.isBooking with
  | false =>
      rw [store_answer w now hcall]
      exact .refl _
  | true =>
      have booked : ∀ {α : Type} (fault : Option String) (result : Except StoreError α × Store),
          result.2.SameContacts w.store →
            (w.ofStore fault result).world.store.SameContacts w.store := by
        intro α fault result same
        rcases store_ofStore w fault result with h | h
        · exact h ▸ .refl _
        · exact h ▸ same
      cases call with
      | confirmPayment hash => exact booked _ _ (Store.sameContacts_confirm _ _)
      | addCredits user amount => exact booked _ _ (Store.sameContacts_addCredits _ _ _)
      | _ => cases hcall

theorem entered_answer (t : Errand N) (faults : Faults) (request : Request) (now : Instant)
    (call : Call) (r : call.Reply) (u : N × Store) :
    Entered [⟨call, r⟩] u.2 ((t.deliberation faults request).answer now call u).world.2 := by
  simp only [Errand.deliberation, beside]
  split
  next => exact ⟨fun _ => rfl, .refl _⟩
  next =>
    refine ⟨fun unbooked => ?_, sameContacts_answer _ now call⟩
    exact store_answer (shop faults u.2) now (unbooked _ (List.mem_singleton_self _))

/-- Whatever is decided, it is known what the store is then. -/
theorem justified_of_decides (decides : t.Decides now w request d later u) :
    Justified t.verifier request w.2.store d u.2 := by
  obtain ⟨y, comes, stops, -, rfl⟩ := decides
  have considered : Considered t.verifier request w.2.store y.stage y.world.2 := by
    clear stops
    induction comes with
    | refl => exact .leased
    | tail _ step ih =>
        rcases Machine.world_of_after step with ⟨call, leads, hworld⟩ | ⟨leads, hworld⟩
        · rw [hworld]
          exact ih.next (entered_answer t _ request _ call _ _) leads
        · rw [hworld]
          exact ih.next ⟨fun _ => rfl, .refl _⟩ leads
  exact considered.justified (Turn.eq_done_of_stops stops)

/-! ## How the work begins -/

/-- A message that is turned away at once is refused for what it is. -/
theorem rejected_of_receive (turn : receive t.verifier t.body = .done outcome) :
    ∃ reason, outcome = .rejected reason ∧ ∀ e, reason ≠ .verification e := by
  unfold receive at turn
  split at turn
  next =>
    cases turn
    exact ⟨_, rfl, nofun⟩
  next =>
    split at turn
    next =>
      cases turn
      exact ⟨_, rfl, nofun⟩
    next => split at turn <;> cases turn

theorem Errand.Reads.unique {request' : Request} {ttl' : Duration} (reads : t.Reads request ttl)
    (reads' : t.Reads request' ttl') : request' = request ∧ ttl' = ttl := by
  obtain rfl := Except.ok.inj (reads.read.symm.trans reads'.read)
  have hcall := (Turn.ask.inj (reads.turn.symm.trans reads'.turn)).1
  exact ⟨rfl, (Call.acquire.inj hcall).2.symm⟩

theorem acquire_answer {w : World} (reached : w.faults.acquire = none) (now : Instant)
    (key : String) (ttl : Duration) : w.answer now (.acquire key ttl) =
      ⟨.ok (w.locks.acquire now key ttl).1, ⟨0⟩,
        { w with locks := (w.locks.acquire now key ttl).2 }⟩ := by
  simp [World.answer, reached]

theorem acquire_unreached {w : World} {text : String} (fault : w.faults.acquire = some text)
    (now : Instant) (key : String) (ttl : Duration) :
    w.answer now (.acquire key ttl) = ⟨.error (.backend text), ⟨0⟩, w⟩ := by
  simp [World.answer, fault, World.reply]

/-- The work is over at once if the lock is not granted. -/
theorem ends_of_refused (reads : t.Reads request ttl) (refused : w.2.faults.acquire = none →
    (w.2.locks.acquire now (t.key request) ttl).1 = none) :
    t.Ends now w outcome later w' ↔ outcome = .abandoned ∧ later = now ∧ w' = w := by
  have finished : ∀ (r : Except LockError (Option Lease)) (u : N × World) log,
      (∀ lease, r ≠ .ok (some lease)) →
        (t.machine.Closes t.cancelAt ⟨now, u, .leased request r, log⟩ (some outcome) later w' ↔
          outcome = .abandoned ∧ later = now ∧ w' = u) := by
    intro r u log ungranted
    rcases r with e | _ | lease
    · rw [Machine.closes_iff_of_done rfl, Option.some.injEq]
    · rw [Machine.closes_iff_of_done rfl, Option.some.injEq]
    · exact absurd rfl (ungranted lease)
  cases fault : w.2.faults.acquire with
  | some text =>
      have answer := answer_here (t := t) (.acquire (t.key request) ttl) rfl
        (acquire_unreached fault now (t.key request) ttl)
      rw [Errand.Ends, Machine.closes_iff_of_ask reads.turn answer]
      exact finished _ _ _ nofun
  | none =>
      have answer := answer_here (t := t) (.acquire (t.key request) ttl) rfl
        (acquire_answer fault now (t.key request) ttl)
      rw [Errand.Ends, Machine.closes_iff_of_ask reads.turn answer, refused fault,
        LockTable.world_of_acquire (refused fault)]
      exact finished _ _ _ nofun

theorem ends_of_granted (reads : t.Reads request ttl) (reached : w.2.faults.acquire = none)
    (granted : (w.2.locks.acquire now (t.key request) ttl).1 = some lease) :
    t.Ends now w outcome later w' ↔ ∃ d u, t.Decides now w request d later u ∧
      outcome = d.outcome ∧ w' = (u.1, giveBack (d.tell { w.2 with
        store := u.2, locks := (w.2.locks.acquire now (t.key request) ttl).2 }) lease) := by
  have answer := answer_here (t := t) (.acquire (t.key request) ttl) rfl
    (acquire_answer reached now (t.key request) ttl)
  rw [Errand.Ends, Machine.closes_iff_of_ask reads.turn answer, granted]
  exact closes_leased _

/-- What becomes of a message is one of these fates, and each of them is what becomes of it. -/
theorem ends_iff : t.Ends now w outcome later w' ↔ t.Fate now w outcome later w' := by
  constructor
  · intro ends
    rcases receive_cases t.verifier t.body with ⟨o, turn⟩ | ⟨-, turn⟩ | ⟨request, ttl, read, turn⟩
    · obtain ⟨houtcome, rfl, rfl⟩ := (Machine.closes_iff_of_done turn).1 ends
      exact .illegible (Option.some.inj houtcome ▸ turn)
    · cases ((Machine.closes_iff_of_crash turn).1 ends).1
    · have reads : t.Reads request ttl := ⟨read, turn⟩
      by_cases reached : w.2.faults.acquire = none
      · cases granted : (w.2.locks.acquire now (t.key request) ttl).1 with
        | none =>
            obtain ⟨rfl, rfl, rfl⟩ := (ends_of_refused reads fun _ => granted).1 ends
            exact .unlocked reads fun _ => granted
        | some lease =>
            obtain ⟨d, u, decides, rfl, rfl⟩ := (ends_of_granted reads reached granted).1 ends
            exact .decided reads reached granted decides
      · have refused : w.2.faults.acquire = none →
            (w.2.locks.acquire now (t.key request) ttl).1 = none := fun h => absurd h reached
        obtain ⟨rfl, rfl, rfl⟩ := (ends_of_refused reads refused).1 ends
        exact .unlocked reads refused
  · intro fate
    cases fate with
    | illegible turn => exact (Machine.closes_iff_of_done turn).2 ⟨rfl, rfl, rfl⟩
    | unlocked reads refused => exact (ends_of_refused reads refused).2 ⟨rfl, rfl, rfl⟩
    | decided reads reached granted decides =>
        exact (ends_of_granted reads reached granted).2 ⟨_, _, decides, rfl, rfl⟩

/-- A message is not refused because its verification was cancelled. -/
theorem Errand.Fate.not_cancelled (fate : t.Fate now w outcome later w') :
    outcome ≠ .rejected (.verification .cancelled) := by
  cases fate with
  | illegible turn =>
      obtain ⟨reason, rfl, other⟩ := rejected_of_receive turn
      exact fun h => other _ (Outcome.rejected.inj h)
  | unlocked reads refused => nofun
  | decided reads reached granted decides =>
      have justified := justified_of_decides decides
      dsimp only at justified
      cases justified with
      | silent unconfirmed other kept => exact other _
      | failed fits other => exact fun h => other (by simpa [Decision.failed] using h)
      | granted fits contacts => nofun

/-- Where the work is after some turns, or where it ends before. -/
def Errand.last (t : Errand N) (now : Instant) (w : N × World) :
    Point Call Call.Reply (N × World) Stage :=
  t.machine.follow t.cancelAt 30 ⟨now, w, .received, []⟩

theorem Errand.ends_last (h : t.machine.result? (t.last now w) = some outcome) :
    t.Ends now w outcome (t.last now w).instant (t.last now w).world :=
  ⟨_, Machine.comes_follow _ _ _ _, Machine.stopsAt_of_result? h, rfl, rfl⟩

end

namespace Sample

/-- Nodes that follow a script. -/
def nodes (now : Instant) (call : Call) (node : Node) : Answer Node call.Reply :=
  ((⟨node, .empty, .empty, .empty, .none⟩ : World).answer now call).over World.node

/-- A message for the first Dash payment of a user. -/
def errand (cancelAt : Option Instant) : Errand Node where
  verifier := .dash dashConfirmer
  body := "[1,\"alice\",\"forward\",1]".toUTF8
  chain := nodes
  cancelAt := cancelAt

end Sample

end Settlement.Workflow
